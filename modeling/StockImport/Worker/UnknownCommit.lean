import StockImport.Worker.Queue

/-!
# Commits without an answer

A COMMIT may be durable although its client sees an exception.  The handlers of a
cycle then note a failure: they delete the staging rows and add an error row, and
only the update of the report itself asks whether it is still in `processing`.

Where every note that commits finds its report in `processing`, the errors of ended
reports are counted right and the cycle that completed a report does not say that it
failed.  A note on a report that has ended adds an error row that nothing counts.
-/

set_option autoImplicit false

namespace StockImport.Worker

open Csv Db Tables Transactional

/-! ## Counted errors -/

/-- The errors of a report that has ended are counted, and none where it has completed. -/
def Bookkept (data : ReportData) : Prop :=
  ∀ report, data.report = some report → report.Terminal →
    report.errorCount = data.errors.length ∧ (report.status = .completed → data.errors = [])

structure ErrorBookkeeping (world : ServiceWorld) : Prop where
  counts : ∀ report ∈ world.shared.db.reports.rows, report.Terminal →
    report.errorCount = (world.shared.db.errorsOf report.id).length
  completed : ∀ report ∈ world.shared.db.reports.rows, report.status = .completed →
    world.shared.db.errorsOf report.id = []
  /-- The cycle that completed a report does not report a failure. -/
  outcomes : ∀ w thread, world.threads w = some thread →
    thread.program = .done (.ok .processingFailed) →
      ∀ reportId result, (⟨.apply reportId, result⟩ : Commit workerInterface) ∉ thread.log

/-- The note of a failure finds its report in `processing`. -/
def notesProcessing : Transaction → Ledger → Bool
  | .markProcessingFailed reportId, s =>
      (s.db.reports.find reportId).any fun report => report.status == .processing
  | .markApplyFailed reportId, s =>
      (s.db.reports.find reportId).any fun report => report.status == .processing
  | _, _ => true

def InProcessing (reportId : Nat) (s : Ledger) : Prop :=
  ∃ report, s.db.reports.find reportId = some report ∧ report.status = .processing

/-- The precondition of a transaction, as far as the errors go. -/
def Counts (s : Ledger) : Transaction → Prop
  | .writeErrorBatch reportId _ => InProcessing reportId s
  | .insertDuplicateErrors reportId _ => InProcessing reportId s
  | .finalizeValidationFailure reportId _ count => count = (s.db.errorsOf reportId).length
  | .apply reportId => s.db.errorsOf reportId = []
  | .markProcessingFailed reportId => Started reportId s
  | .markApplyFailed reportId => Started reportId s
  | _ => True

/-- The service without the notes of failure on reports that have ended. -/
abbrev notingService (deployment : Deployment) :
    System workerInterface Ledger Environment (Delivery deployment) WorkerCycleOutcome :=
  (service deployment).refusing notesProcessing .runtimeError

/-- A worker alone under the lock, whose commits may go unanswered. -/
def unansweredSpec (deployment : Deployment) : Spec workerInterface Ledger where
  exec := (notingService deployment).exec
  rely := Keeps deployment
  rely_refl := Keeps.refl deployment
  rely_trans _ _ _ := Keeps.trans
  pre _ t s := Counts s t
  raises _ _ := True
  fails _ _ := True
  unknown _ _ := True
  loses := True

/-! ## The step lemma -/

section Step

variable {s s' : Ledger}

theorem Bookkept.of_processing {report : Report} {staged : List ValidatedRow}
    {errors : List ReportError} (status : report.status = .processing) :
    Bookkept ⟨some report, staged, errors⟩ := by
  intro other same ended
  cases same
  simp [Report.Terminal, status] at ended

theorem Changes.bookkept {db db' : Database} {id : Nat} {data : ReportData}
    {inventory : Inventory} (before : ∀ id, Bookkept (db.dataOf id))
    (changes : Changes db db' id data inventory) (own : Bookkept data) :
    ∀ other, Bookkept (db'.dataOf other) := by
  intro other
  by_cases same : other = id
  · rw [same, changes.own]
    exact own
  · rw [changes.others other same]
    exact before other

/-- Staging rows do not count. -/
theorem Bookkept.staged {data : ReportData} (before : Bookkept data) (staged : List ValidatedRow) :
    Bookkept { data with staged := staged } :=
  before

/-- An update of a report that has not ended by then counts, if what it sets does. -/
theorem Bookkept.updated {data : ReportData} {set : Report → Report}
    {staged : List ValidatedRow} (before : Bookkept data)
    (counted : ∀ report, report.status = .processing → (set report).Terminal →
      (set report).errorCount = data.errors.length ∧
        ((set report).status = .completed → data.errors = [])) :
    Bookkept ⟨data.report.map (whileProcessing set), staged, data.errors⟩ := by
  intro report same ended
  simp only [Option.map_eq_some_iff] at same
  obtain ⟨report₀, found, rfl⟩ := same
  unfold whileProcessing at ended ⊢
  split at ended
  · next processing =>
      rw [if_pos processing]
      exact counted report₀ processing ended
  · next other =>
      rw [if_neg other]
      exact before report₀ found ended

theorem Bookkept.noted {db db' : Database} {id : Nat} {set : Report → Report} {added : ReportError}
    {inventory : Inventory} (before : ∀ id, Bookkept (db.dataOf id))
    (processing : (db.reports.find id).any (fun report => report.status == .processing) = true)
    (changes : Changes db db' id
      ⟨(db.reports.find id).map (whileProcessing set), [], db.errorsOf id ++ [added]⟩ inventory)
    (failed : ∀ report, (set report).status = .failed)
    (counted : ∀ report, (set report).errorCount = (db.errorsOf id).length + 1) :
    ∀ other, Bookkept (db'.dataOf other) := by
  refine Changes.bookkept before changes ?_
  cases found : db.reports.find id with
  | none => simp [found] at processing
  | some report =>
      have status : report.status = .processing := by simpa [found] using processing
      intro other same _
      simp only [Option.map_some, whileProcessing, status, if_true, Option.some.injEq] at same
      subst same
      exact ⟨by simp [counted], fun completed => by simp [failed] at completed⟩

/-- Every transaction keeps the errors counted, from its precondition. -/
theorem transaction_bookkept {deployment : Deployment} {t : Transaction} {reply : t.Reply}
    (before : ∀ id, Bookkept (s.db.dataOf id)) (pre : Counts s t)
    (executed : (notingService deployment).exec t s = .ok (reply, s')) :
    ∀ id, Bookkept (s'.db.dataOf id) := by
  obtain ⟨executed, admitted⟩ := refusing_ok executed
  have executed : t.exec s = .ok (reply, s') := executed
  cases t with
  | claim =>
      obtain ⟨claimed, _⟩ := exec_claim executed
      cases reply with
      | none =>
          rw [claim_idle executed]
          exact before
      | some answer =>
          obtain ⟨source, ready⟩ := answer
          obtain ⟨report, _, first⟩ := claim_first claimed
          cases ready with
          | true =>
              rw [first.kept rfl]
              exact before
          | false => exact Changes.bookkept before (first.cleared rfl) (.of_processing rfl)
  | errorCount id =>
      cases executed
      exact before
  | writeStagingBatch id batch =>
      obtain ⟨db, written, rfl⟩ := store_ok executed
      exact Changes.bookkept before (writeStagingBatch_changes written) ((before id).staged _)
  | writeErrorBatch id batch =>
      obtain ⟨report, found, status⟩ := pre
      obtain ⟨db, written, rfl⟩ := store_ok executed
      obtain ⟨added, _, changes⟩ := writeErrorBatch_changes written
      simp only [Database.dataOf, found] at changes
      exact Changes.bookkept before changes (.of_processing status)
  | insertDuplicateErrors id rawValueChars =>
      obtain ⟨report, found, status⟩ := pre
      obtain ⟨db, written, rfl⟩ := store_ok executed
      obtain ⟨added, _, changes⟩ := insertErrors_changes written
      simp only [Database.dataOf, found] at changes
      exact Changes.bookkept before changes (.of_processing status)
  | finalizeValidationFailure id rowCount count =>
      cases executed
      refine Changes.bookkept before (finalizeValidationFailure_changes id rowCount count s.db)
        ((before id).updated fun report _ _ => ⟨pre, fun completed => ?_⟩)
      simp [Report.failValidation] at completed
  | markValidated id rowCount =>
      cases executed
      refine Changes.bookkept before (markValidated_changes id rowCount s.db)
        ((before id).updated fun report processing ended => ?_)
      simp [Report.Terminal, Report.setValidated, processing] at ended
  | markProcessingFailed id =>
      obtain ⟨db, written, rfl⟩ := store_ok executed
      obtain ⟨added, changes⟩ := markFailed_changes written
      exact Bookkept.noted before admitted changes (fun _ => rfl) (fun _ => rfl)
  | markApplyFailed id =>
      obtain ⟨db, written, rfl⟩ := store_ok executed
      obtain ⟨added, changes⟩ := markFailed_changes written
      exact Bookkept.noted before admitted changes (fun _ => rfl) (fun _ => rfl)
  | apply id =>
      obtain ⟨db, ran, rfl⟩ := exec_apply executed
      obtain ⟨report, _, counters, _, ready, _, _, changes⟩ := applyReport_changes ran
      have none : s.db.errorsOf id = [] := pre
      rw [none] at changes
      refine Changes.bookkept before changes ?_
      intro other same _
      cases same
      exact ⟨(readyForApply_cases ready).2.1, fun _ => rfl⟩

end Step

/-! ## A cycle with unanswered commits -/

/-- A cycle that has committed an apply does not report a failure. -/
def NoDeniedApply : Post workerInterface Ledger WorkerCycleOutcome :=
  fun result log _ => result = .ok .processingFailed →
    ∀ reportId result, (⟨.apply reportId, result⟩ : Commit workerInterface) ∉ log

section Unanswered

variable {deployment : Deployment} {source : ReportSource}

theorem unanswered_ok {t : Transaction} {reply : t.Reply} {s s' : Ledger}
    (executed : (unansweredSpec deployment).exec t s = .ok (reply, s')) :
    t.exec s = .ok (reply, s') ∧ notesProcessing t s = true :=
  refusing_ok executed

theorem noDeniedApply_stable (deployment : Deployment) :
    StablePost (unansweredSpec deployment) NoDeniedApply :=
  fun _ _ _ _ _ holds => holds

theorem Validates.notes {t : Transaction} (validates : Validates deployment source t)
    (s : Ledger) : notesProcessing t s = true := by
  cases t with
  | markProcessingFailed _ | markApplyFailed _ => exact validates.elim
  | _ => rfl

theorem Validates.not_apply {t : Transaction} (validates : Validates deployment source t)
    (id : Nat) : t ≠ .apply id := by
  rintro rfl
  exact validates

theorem Claimed.inProcessing {s : Ledger} (claimed : Claimed source s) :
    InProcessing source.id s := by
  obtain ⟨report, found, _, status, _⟩ := claimed
  exact ⟨report, found, status⟩

theorem Pre.counts {faults : Faults} {t : Transaction} {s : Ledger}
    (validates : Validates deployment source t) (pre : Pre deployment faults s t) : Counts s t := by
  cases t with
  | writeErrorBatch _ _ | insertDuplicateErrors _ _ =>
      obtain ⟨source, rfl, claimed⟩ := pre
      exact claimed.inProcessing
  | finalizeValidationFailure _ _ _ =>
      obtain ⟨_, _, _, counted, _⟩ := pre
      exact counted
  | markProcessingFailed _ | markApplyFailed _ | apply _ => exact validates.elim
  | _ => trivial

theorem wp_validate_unanswered (delivery : Delivery deployment)
    {log : List (Commit workerInterface)} {s : Ledger} (stored : Stored source s [] [])
    (written : Written deployment source.id log [] []) :
    wp (unansweredSpec deployment) (validate deployment delivery source)
      (fun result later s => (Started source.id s ∧
          (Validated deployment .any source result later s ∨ ∃ e, result = .error e)) ∧
        ∃ more, later = log ++ more ∧ ∀ commit ∈ more, Validates deployment source commit.transaction)
      log s := by
  have locked : wp (lockedSpec deployment .any) (validate deployment delivery source)
      (Validated deployment .any source) log s := wp_validate delivery stored written
  refine wp_logs _ log _ log s (ensures_validate delivery) ⟨[], by simp, by simp⟩
    (wp_mono _ _ ?_ log s (wp_propagates (lockedSpec deployment .any) (unansweredSpec deployment)
      (fun _ _ keeps => keeps) (fun _ => trivial) (fun _ _ _ => trivial) (fun _ _ _ _ => trivial)
      (fun _ t s validates pre => pre.counts validates)
      (fun t s validates => refusing_admitted (validates.notes s))
      (fun _ _ keeps started => started.keep keeps)
      (fun t reply s s' _ started executed => started.exec executed) _ log s
      (propagates_validate deployment delivery source) (ensures_validate delivery)
      (started_of_claimed stored.claimed) locked))
  rintro result later s ⟨started, ends | ⟨_, e, same, _⟩⟩
  · exact ⟨started, Or.inl ends⟩
  · exact ⟨started, Or.inr ⟨e, same⟩⟩

theorem wp_processValidation_unanswered (delivery : Delivery deployment) {s : Ledger}
    (stored : Stored source s [] []) :
    wp (unansweredSpec deployment) (processValidation deployment delivery source) NoDeniedApply
      [⟨.claim, some (source, false)⟩] s := by
  have stable := noDeniedApply_stable deployment
  have written : Written deployment source.id [⟨.claim, some (source, false)⟩] [] [] :=
    ⟨rfl, by simp [stagingBatches], rfl, by simp [errorBatches]⟩
  unfold processValidation
  refine wp_handle _ _ _ stable
    (wp_mono _ _ ?_ _ _ (wp_validate_unanswered delivery stored written))
  rintro result _ s ⟨⟨started, ends⟩, more, rfl, asked⟩
  cases result with
  | ok outcome =>
      rcases ends with ⟨_, ⟨rfl, _⟩ | ⟨rfl, _⟩⟩ | ⟨_, same⟩
      · intro failed; cases failed
      · intro failed; cases failed
      · cases same
  | error e =>
      dsimp only
      unfold unlessLockLost
      split
      · exact wp_done _ stable (fun failed => by cases failed)
      · refine wp_then_assertLock _ _ _ stable ?_ (fun _ failed => by cases failed)
        refine wp_then_commit _ _ _ stable (fun _ _ keeps started => started.keep keeps) started
          (fun _ started => started) ?_ (fun _ _ _ _ failed => by cases failed)
          (fun _ _ _ _ failed => by cases failed)
        intro s reply s' _ _
        refine ⟨wp_pure _ stable ?_, fun _ _ failed => by cases failed⟩
        intro _ reportId result member
        rcases List.mem_append.mp member with before | noted
        · rcases List.mem_cons.mp before with claimed | validating
          · cases claimed
          · exact (asked _ validating).not_apply reportId rfl
        · cases List.mem_singleton.mp noted

/-- Before the transaction of an apply: no error row. -/
def Errorless (reportId : Nat) (s : Ledger) : Prop :=
  Started reportId s ∧ s.db.errorsOf reportId = []

theorem Errorless.keep {id : Nat} {s s' : Ledger} (keeps : Keeps deployment s s')
    (errorless : Errorless id s) : Errorless id s' := by
  obtain ⟨⟨report, found, status⟩, none⟩ := errorless
  exact ⟨⟨report, keeps.found found, status⟩, (keeps.errors found).trans none⟩

def Completed (reportId : Nat) (s : Ledger) : Prop :=
  ∃ report, s.db.reports.find reportId = some report ∧ report.status = .completed

/-- After an exception in `apply`: nothing has committed, or the apply has. -/
def ApplyRaised (source : ReportSource) (log : List (Commit workerInterface)) (s : Ledger) : Prop :=
  Started source.id s ∧
    ((∀ reportId result, (⟨.apply reportId, result⟩ : Commit workerInterface) ∉ log) ∨
      Completed source.id s)

theorem applyRaised_stable (log : List (Commit workerInterface)) :
    Stable (unansweredSpec deployment) (ApplyRaised source log) := by
  rintro s s' keeps ⟨started, none | ⟨report, found, status⟩⟩
  · exact ⟨started.keep keeps, Or.inl none⟩
  · exact ⟨started.keep keeps, Or.inr ⟨report, Keeps.found keeps found, status⟩⟩

/-- The end of `apply`. -/
def ApplyEnded (source : ReportSource) : Post workerInterface Ledger ApplyResult :=
  fun result log s =>
    match result with
    | .ok _ => True
    | .error _ => ApplyRaised source log s

theorem applyEnded_stable : StablePost (unansweredSpec deployment) (ApplyEnded source) := by
  intro result log s s' keeps ended
  cases result with
  | ok result => trivial
  | error e => exact applyRaised_stable log s s' keeps ended

theorem wp_apply_unanswered {log : List (Commit workerInterface)} {s : Ledger}
    (errorless : Errorless source.id s)
    (none : ∀ reportId result, (⟨.apply reportId, result⟩ : Commit workerInterface) ∉ log) :
    wp (unansweredSpec deployment) (apply source.id) (ApplyEnded source) log s := by
  have stable : StablePost (unansweredSpec deployment) (ApplyEnded source) := applyEnded_stable
  unfold apply
  refine wp_then_assertLock _ _ _ stable ?_ fun _ => ⟨errorless.1, Or.inl none⟩
  refine wp_bind _ _ _ stable (wp_runSteps (stablePost_bind _ _ stable) _ _ _ _ ?_
    fun _ _ => ⟨errorless.1, Or.inl none⟩)
  refine wp_commit _ _ stable (fun _ _ keeps errorless => errorless.keep keeps) errorless
    (fun _ errorless => errorless.2) ?_ (fun _ _ errorless _ => ⟨errorless.1, Or.inl none⟩)
    (fun _ _ errorless _ => ⟨errorless.1, Or.inl none⟩)
  intro s result s' errorless executed
  refine ⟨trivial, fun e _ => ?_⟩
  obtain ⟨executed, _⟩ := unanswered_ok executed
  refine ⟨errorless.1.exec executed, Or.inr ?_⟩
  obtain ⟨db, ran, rfl⟩ := exec_apply executed
  obtain ⟨_, _, counters, _, _, _, _, changes⟩ := applyReport_changes ran
  exact ⟨_, congrArg ReportData.report changes.own, rfl⟩

theorem wp_processApply_unanswered {log : List (Commit workerInterface)} {s : Ledger}
    (errorless : Errorless source.id s)
    (none : ∀ reportId result, (⟨.apply reportId, result⟩ : Commit workerInterface) ∉ log) :
    wp (unansweredSpec deployment) (processApply source.id) NoDeniedApply log s := by
  have stable := noDeniedApply_stable deployment
  unfold processApply
  refine wp_handle _ _ _ stable (wp_bind _ _ _ (stablePost_handle _ _ stable)
    (wp_mono _ _ ?_ _ _ (wp_apply_unanswered errorless none)))
  intro result log s ended
  cases result with
  | ok result => exact wp_pure _ (stablePost_handle _ _ stable) (fun failed => by cases failed)
  | error e =>
      have raised : ApplyRaised source log s := ended
      dsimp only
      unfold unlessLockLost
      split
      · exact wp_done _ stable (fun failed => by cases failed)
      · refine wp_handle _ _ _ stable ?_
        have stable' := stablePost_handle (unansweredSpec deployment)
          (fun _ => Program.raise (i := workerInterface) (α := WorkerCycleOutcome) e) stable
        have raises : ∀ (log : List (Commit workerInterface)) (s : Ledger),
            wp (unansweredSpec deployment)
              (Program.raise (i := workerInterface) (α := WorkerCycleOutcome) e) NoDeniedApply
              log s :=
          fun log s => wp_done _ stable (fun failed => by cases failed)
        refine wp_then_assertLock _ _ _ stable' ?_ (fun _ => raises _ _)
        refine wp_then_commit _ _ _ stable' (applyRaised_stable log) raised
          (fun _ raised => raised.1) ?_ (fun _ _ _ _ => raises _ _) (fun _ _ _ _ => raises _ _)
        intro s reply s' raised executed
        refine ⟨wp_pure _ stable' ?_, fun _ _ => raises _ _⟩
        obtain ⟨_, noted⟩ := unanswered_ok executed
        rcases raised.2 with none | ⟨report, found, status⟩
        · intro _ reportId result member
          rcases List.mem_append.mp member with before | noted
          · exact none reportId result before
          · cases List.mem_singleton.mp noted
        · -- the note of a failure on a completed report is refused
          simp [notesProcessing, found, status] at noted

theorem wp_process_unanswered (delivery : Delivery deployment) (s : Ledger) :
    wp (unansweredSpec deployment) (process deployment delivery) NoDeniedApply [] s := by
  have stable := noDeniedApply_stable deployment
  unfold process
  refine wp_then_commit _ _ _ stable (fun _ _ _ _ => trivial) trivial (fun _ _ => trivial) ?_
    (fun _ _ _ _ failed => by cases failed) (fun _ _ _ _ failed => by cases failed)
  intro s reply s' _ executed
  refine ⟨?_, fun _ _ failed => by cases failed⟩
  obtain ⟨claimed, same⟩ := exec_claim (unanswered_ok executed).1
  match reply with
  | none => exact wp_pure _ stable (fun failed => by cases failed)
  | some (source, true) =>
      obtain ⟨report, rfl, first⟩ := claim_first claimed
      obtain ⟨status, complete⟩ := first.complete.mp rfl
      rw [first.kept rfl] at same
      rw [same]
      refine wp_processApply_unanswered ⟨⟨report, first.found, by simp [status]⟩, ?_⟩ ?_
      · exact (validationIsComplete_cases complete).2.2.2
      · intro reportId result member
        cases List.mem_singleton.mp member
  | some (source, false) =>
      obtain ⟨report, rfl, first⟩ := claim_first claimed
      rw [same]
      exact wp_processValidation_unanswered delivery (stored_of_claim (first.cleared rfl))

end Unanswered

theorem environment_bookkept {deployment : Deployment} {e : Environment} {s s' : Ledger}
    (before : ∀ id, Bookkept (s.db.dataOf id))
    (happened : (service deployment).environment e s = some s') :
    ∀ id, Bookkept (s'.db.dataOf id) := by
  simp only [service, Option.map_eq_some_iff] at happened
  obtain ⟨db, stepped, rfl⟩ := happened
  obtain ⟨_, same | ⟨registration, _, changes⟩⟩ := Environment.step_cases stepped
  · exact fun id => (same id).symm ▸ before id
  · refine Changes.bookkept before changes ?_
    intro report same ended
    cases same
    simp [Report.Terminal, Registration.report] at ended

theorem unanswered_guarantees (deployment : Deployment) :
    Guarantees (notingService deployment) (unansweredSpec deployment)
      (fun s => ∀ id, Bookkept (s.db.dataOf id)) NoDeniedApply where
  exec := rfl
  loses := trivial
  environment e s s' before happened := by
    have happened : (service deployment).environment e s = some s' := happened
    exact ⟨environment_bookkept before happened, environment_keeps happened⟩
  transaction _ _ _ _ _ before pre executed := transaction_bookkept before pre executed
  starts delivery s _ := wp_process_unanswered delivery s

/-! ## Runs in which every note finds its report -/

/-- Locked runs with commits that go unanswered, in which every note of a failure
that commits finds its report in `processing`. -/
def NotingRun (deployment : Deployment) (world : ServiceWorld) : Prop :=
  Reachable (service deployment)
    (fun world action => Serialised world action ∧
      Admitted (service deployment) notesProcessing world action) ServiceWorld.empty world

section Noting

variable {deployment : Deployment} {world next : ServiceWorld} {action : ServiceAction deployment}

theorem unanswered_permits (world : ServiceWorld) (action : ServiceAction deployment) :
    Permits (unansweredSpec deployment) world action :=
  permits_any (fun _ _ => trivial) (fun _ _ => trivial) (fun _ _ => trivial) world action

theorem NotingRun.tracks (run : NotingRun deployment world) :
    Tracks (unansweredSpec deployment) (fun s => ∀ id, Bookkept (s.db.dataOf id)) NoDeniedApply
      (fun current w => current = some w) world := by
  have noting : Reachable (notingService deployment)
      (fun world action => Serialised world action ∧ Permits (unansweredSpec deployment) world action)
      ServiceWorld.empty world :=
    (reachable_refusing run).weaken fun world action _ serialised =>
      ⟨serialised, unanswered_permits world action⟩
  refine exclusive_sound (unanswered_guarantees deployment) ServiceWorld.empty_idle ?_
    (serialised_exclusive ServiceWorld.empty_idle noting)
  intro id report found
  cases found

theorem NotingRun.thread (run : NotingRun deployment world) {w : Nat}
    {thread : Thread workerInterface WorkerCycleOutcome} (running : world.threads w = some thread) :
    wp (unansweredSpec deployment) thread.program NoDeniedApply thread.log world.shared :=
  run.tracks.2 w thread running (serialised_current (fun _ _ admitted => admitted.1)
    ServiceWorld.empty_idle run w thread running)

theorem NotingRun.bookkeeping (run : NotingRun deployment world) : ErrorBookkeeping world where
  counts report member ended :=
    (run.tracks.1 report.id report ((Table.find_eq_some _).mpr ⟨member, rfl⟩) ended).1
  completed report member status :=
    (run.tracks.1 report.id report ((Table.find_eq_some _).mpr ⟨member, rfl⟩)
      (Or.inl status)).2 status
  outcomes w thread running program := by
    have holds := run.thread running
    rw [program] at holds
    exact holds world.shared (Keeps.refl deployment _) rfl

/-- A note on a report that has ended: an error row more, and the report as it was. -/
theorem lateNote {t : Transaction} {reply : t.Reply} {s s' : Ledger} (pre : Counts s t)
    (late : notesProcessing t s = false) (executed : t.exec s = .ok (reply, s')) :
    ∃ report added, s.db.reports.find report.id = some report ∧ report.Terminal ∧
      s'.db.dataOf report.id = ⟨some report, [], s.db.errorsOf report.id ++ [added]⟩ := by
  have ended : ∀ {id : Nat}, Started id s →
      ((s.db.reports.find id).any fun report => report.status == .processing) = false →
        ∃ report, s.db.reports.find id = some report ∧ report.id = id ∧ report.Terminal ∧
          report.status ≠ .processing := by
    rintro id ⟨report, found, started⟩ late
    have notProcessing : report.status ≠ .processing := by simpa [found] using late
    refine ⟨report, found, ((Table.find_eq_some _).mp found).2, ?_, notProcessing⟩
    unfold Report.Terminal
    cases status : report.status <;> simp_all
  cases t with
  | markProcessingFailed id =>
      obtain ⟨report, found, rfl, terminal, notProcessing⟩ := ended pre late
      obtain ⟨db, written, rfl⟩ := store_ok executed
      obtain ⟨added, changes⟩ := markFailed_changes written
      rw [found] at changes
      simp only [Option.map_some, whileProcessing, notProcessing, if_false] at changes
      exact ⟨report, added, found, terminal, changes.own⟩
  | markApplyFailed id =>
      obtain ⟨report, found, rfl, terminal, notProcessing⟩ := ended pre late
      obtain ⟨db, written, rfl⟩ := store_ok executed
      obtain ⟨added, changes⟩ := markFailed_changes written
      rw [found] at changes
      simp only [Option.map_some, whileProcessing, notProcessing, if_false] at changes
      exact ⟨report, added, found, terminal, changes.own⟩
  | _ => cases late

/-- The first note that does not find its report breaks the count. -/
theorem NotingRun.broken (run : NotingRun deployment world)
    (stepped : (service deployment).step world action = some next)
    (late : ¬ Admitted (service deployment) notesProcessing world action) :
    ¬ ErrorBookkeeping next := by
  intro kept
  cases action with
  | environment _ | acquire _ _ | drop _ | leave _ => exact late trivial
  | run w fault =>
      obtain ⟨thread, thread', s, commit, running, ran, rfl⟩ := step_run stepped
      simp only [Admitted, not_forall] at late
      obtain ⟨_, _, _, noted, running', ran', unadmitted⟩ := late
      cases running.symm.trans running'
      cases ran.symm.trans ran'
      rcases (Thread.run_cases ran).2.2 with ⟨_, same, _⟩ | ⟨t, reply, _, program, executed, same, _⟩
      · cases same
      · cases same
        have holds := run.thread running
        rw [program] at holds
        have pre : Counts world.shared t := (holds world.shared (Keeps.refl deployment _)).1
        obtain ⟨report, added, found, ended, after⟩ :=
          lateNote pre (by simpa using unadmitted) executed
        have foundAfter : s.db.reports.find report.id = some report :=
          congrArg ReportData.report after
        have errorsAfter : s.db.errorsOf report.id = world.shared.db.errorsOf report.id ++ [added] :=
          congrArg ReportData.errors after
        have counted := (run.tracks.1 report.id report found ended).1
        have recounted := kept.counts report ((Table.find_eq_some _).mp foundAfter).1 ended
        dsimp only [Database.dataOf] at counted recounted
        rw [errorsAfter, List.length_append, List.length_singleton] at recounted
        omega

theorem Pre.notes {faults : Faults} {t : Transaction} {s : Ledger}
    (pre : Pre deployment faults s t) : notesProcessing t s = true := by
  cases t with
  | markProcessingFailed id =>
      obtain ⟨_, rfl, ⟨report, found, _, status, _⟩, _⟩ := pre
      simp [notesProcessing, found, status]
  | markApplyFailed id =>
      obtain ⟨_, rfl, ⟨report, found, _, status, _⟩, _⟩ := pre
      simp [notesProcessing, found, status]
  | _ => rfl

/-- Where no commit goes unanswered, every note finds its report. -/
theorem LockedRun.noting (run : LockedRun deployment world) : NotingRun deployment world := by
  refine run.weaken ?_
  intro world action before admitted
  refine ⟨admitted.1, ?_⟩
  cases action with
  | environment _ | acquire _ _ | drop _ | leave _ => trivial
  | run w fault =>
      intro thread thread' s commit running ran
      rcases (Thread.run_cases ran).2.2 with ⟨_, same, _⟩ | ⟨t, reply, _, program, _, same, _⟩
      · cases same
      · cases same
        have holds := LockedRun.thread before running
        rw [program] at holds
        have pre : Pre deployment .any world.shared t :=
          (holds world.shared (Keeps.refl deployment _)).1
        exact pre.notes

end Noting

/-- Errors stay counted under unknown commits as long as every note of a failure finds
its report in `processing`; the first note that does not breaks the count. -/
theorem unknown_commit_bookkeeping (deployment : Deployment) (world : ServiceWorld)
    (run : NotingRun deployment world) :
    ErrorBookkeeping world ∧
    ∀ (action : ServiceAction deployment) (next : ServiceWorld), Serialised world action →
      (service deployment).step world action = some next →
        (ErrorBookkeeping next ↔ Admitted (service deployment) notesProcessing world action) := by
  refine ⟨run.bookkeeping, ?_⟩
  intro action next serialised stepped
  constructor
  · intro kept
    by_contra late
    exact run.broken stepped late kept
  · intro admitted
    have more : NotingRun deployment next := .step action run ⟨serialised, admitted⟩ stepped
    exact more.bookkeeping

/-- The first report in front of the transaction of its staging batch. -/
def stagingActions : List (ServiceAction sampleDeployment) :=
  [sampleRegistration 1 "first"] ++ sampleStart 10

theorem stagingActions_run :
    ((service sampleDeployment).runs ServiceWorld.empty stagingActions).isSome = true := by
  decide +kernel

def stagingWorld : ServiceWorld :=
  ((service sampleDeployment).runs ServiceWorld.empty stagingActions).get stagingActions_run

theorem stagingWorld_noting : NotingRun sampleDeployment stagingWorld := by
  refine (solo_locked ?_ (Option.some_get stagingActions_run).symm).noting
  simp [stagingActions, sampleRegistration, sampleStart, Action.Solo]

/-- The batch is committed, but its client sees an exception and turns to its handler. -/
def unheardBatch : List (ServiceAction sampleDeployment) :=
  [.run 0 (.unknown .sqlAlchemyError), .run 0 .none]

theorem unheardBatch_run :
    ((service sampleDeployment).runs stagingWorld unheardBatch).isSome = true := by
  decide +kernel

/-- The handler is in front of the transaction of its note. -/
def handlerWorld : ServiceWorld :=
  ((service sampleDeployment).runs stagingWorld unheardBatch).get unheardBatch_run

theorem handlerWorld_noting : NotingRun sampleDeployment handlerWorld := by
  refine reachable_commitsPass (fun world _ t => notesProcessing t world.shared) unheardBatch _ _
    ?_ stagingWorld_noting (by decide +kernel) (Option.some_get unheardBatch_run).symm
  intro action member world passes
  refine ⟨?_, admitted_of_commitOf passes⟩
  simp only [unheardBatch, List.mem_cons, List.not_mem_nil, or_false] at member
  rcases member with rfl | rfl <;> trivial

theorem unknown_commit_bookkeeping_handlerWorld :
    (handlerWorld.shared.db.stagedRows 1).length = 2 ∧ ErrorBookkeeping handlerWorld ∧
      ∃ next, (service sampleDeployment).step handlerWorld (.run 0 .none) = some next ∧
        (∃ report ∈ next.shared.db.reports.rows, report.status = .failed ∧
          (next.shared.db.errorsOf report.id).length = 1) ∧ ErrorBookkeeping next := by
  have noted : ((service sampleDeployment).step handlerWorld (.run 0 .none)).any
      (fun next => next.shared.db.reports.rows.any fun report =>
        report.status == .failed && (next.shared.db.errorsOf report.id).length == 1) = true := by
    decide +kernel
  obtain ⟨next, stepped, failed⟩ := (Option.any_eq_true _ _).mp noted
  obtain ⟨kept, onward⟩ := unknown_commit_bookkeeping sampleDeployment handlerWorld
    handlerWorld_noting
  refine ⟨by decide +kernel, kept, next, stepped, by simpa using failed, ?_⟩
  exact (onward (.run 0 .none) next trivial stepped).mpr
    (admitted_of_commitOf (by decide +kernel))

/-! ## An apply whose answer is lost -/

/-- The first report in front of the transaction of its apply. -/
def applyActions : List (ServiceAction sampleDeployment) :=
  [sampleRegistration 1 "first"] ++ sampleCycle 19 ++ sampleStart 12

theorem applyActions_run :
    ((service sampleDeployment).runs ServiceWorld.empty applyActions).isSome = true := by
  decide +kernel

def applyWorld : ServiceWorld :=
  ((service sampleDeployment).runs ServiceWorld.empty applyActions).get applyActions_run

/-- The COMMIT is durable, the client sees an exception, and its handler notes a
failure. -/
def lostAnswer : List (ServiceAction sampleDeployment) :=
  [.run 0 (.unknown .sqlAlchemyError), .run 0 .none, .run 0 .none]

theorem lostAnswer_run :
    ((service sampleDeployment).runs applyWorld lostAnswer).isSome = true := by
  decide +kernel

def deniedWorld : ServiceWorld :=
  ((service sampleDeployment).runs applyWorld lostAnswer).get lostAnswer_run

theorem deniedWorld_serialised :
    Reachable (service sampleDeployment) Serialised ServiceWorld.empty deniedWorld := by
  have before : Reachable (service sampleDeployment) Serialised ServiceWorld.empty applyWorld := by
    refine solo_reachable 0 (fun _ _ _ serialised => serialised) applyActions ServiceWorld.empty
      applyWorld ?_ (fun _ _ => rfl) .start (Option.some_get applyActions_run).symm
    simp [applyActions, sampleRegistration, sampleCycle, sampleStart, Action.Solo]
  refine reachable_runs lostAnswer _ _ ?_ before (Option.some_get lostAnswer_run).symm
  simp [lostAnswer, Serialised]

/-- The completed report has an error row that its `error_count` leaves out, and its
cycle says that it failed. -/
theorem unknown_commit_miscounts :
    ¬ ∀ world : ServiceWorld,
      Reachable (service sampleDeployment) Serialised ServiceWorld.empty world →
        ErrorBookkeeping world := by
  intro always
  have kept := always deniedWorld deniedWorld_serialised
  have wrong : ∃ report ∈ deniedWorld.shared.db.reports.rows, report.status = .completed ∧
      (deniedWorld.shared.db.errorsOf report.id).length = 1 := by decide +kernel
  obtain ⟨report, member, status, one⟩ := wrong
  rw [kept.completed report member status] at one
  cases one

end StockImport.Worker
