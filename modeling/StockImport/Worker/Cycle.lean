import StockImport.Worker.Validation

/-!
# A cycle under the lock

`ReportProcessor.process` from a sound ledger: the claim, then the apply of a
report that is ready or the validation of one whose tables are empty.  The outcome
names the state in which the cycle leaves its report.

`Moves` is what one transaction does to the data of any report.
-/

set_option autoImplicit false

namespace StockImport.Worker

open Csv Db Tables Transactional

/-! ## The end of a cycle -/

/-- The state that an outcome stands for. -/
def WorkerCycleOutcome.Names (outcome : WorkerCycleOutcome) (report : Report) : Prop :=
  match outcome with
  | .validated => report.status = .processing ∧ 0 < report.rowCount
  | .validationFailed => report.status = .failed ∧ report.failureKind = some .validation
  | .processingFailed => report.status = .failed ∧ report.failureKind = some .processing
  | .completed => report.status = .completed
  | .lockNotAcquired => False
  | .noReport => False
  | .waitingForApply => False

/-- The work on a claimed report has ended. -/
def Ended (source : ReportSource) : Post workerInterface Ledger WorkerCycleOutcome :=
  fun result _ s =>
    match result with
    | .ok outcome => ∃ report, s.db.reports.find source.id = some report ∧
        reportSource report = source ∧ outcome.Names report
    | .error _ => True

/-- A cycle has ended: it found no report, or its first commit claimed the one
whose state the outcome names. -/
def CycleEnded : Post workerInterface Ledger WorkerCycleOutcome :=
  fun result log s =>
    match result with
    | .ok outcome => (outcome = .noReport ∧ log = [⟨.claim, none⟩]) ∨
        ∃ source ready, [⟨.claim, some (source, ready)⟩] <+: log ∧ Ended source result log s
    | .error _ => True

section Locked

variable {deployment : Deployment} {faults : Faults} {source : ReportSource}

theorem ended_stable (deployment : Deployment) (faults : Faults) (source : ReportSource) :
    StablePost (lockedSpec deployment faults) (Ended source) := by
  intro result log s s' keeps holds
  cases result with
  | ok outcome =>
      obtain ⟨report, found, rest⟩ := holds
      exact ⟨report, Keeps.found keeps found, rest⟩
  | error e => trivial

theorem cycleEnded_stable (deployment : Deployment) (faults : Faults) :
    StablePost (lockedSpec deployment faults) CycleEnded := by
  intro result log s s' keeps holds
  cases result with
  | ok outcome =>
      rcases holds with none | ⟨source, ready, claimed, ended⟩
      · exact Or.inl none
      · exact Or.inr ⟨source, ready, claimed, ended_stable _ _ _ _ _ _ _ keeps ended⟩
  | error e => trivial

/-! ## Apply -/

/-- The report of an apply: completed, or as ready as before. -/
def Applied (deployment : Deployment) (faults : Faults) (source : ReportSource) :
    Post workerInterface Ledger ApplyResult :=
  fun result _ s =>
    match result with
    | .ok _ => ∃ report, s.db.reports.find source.id = some report ∧
        reportSource report = source ∧ report.status = .completed
    | .error e => Ready deployment source s ∧
        ((faults.loses ∧ e = .lockConnectionLost) ∨ Blames deployment faults source e)

theorem applied_stable (deployment : Deployment) (faults : Faults) (source : ReportSource) :
    StablePost (lockedSpec deployment faults) (Applied deployment faults source) := by
  intro result log s s' keeps holds
  cases result with
  | ok result =>
      obtain ⟨report, found, rest⟩ := holds
      exact ⟨report, Keeps.found keeps found, rest⟩
  | error e => exact ⟨holds.1.keep keeps, holds.2⟩

theorem ready_stable :
    Stable (lockedSpec deployment faults) fun s => Ready deployment source s :=
  fun _ _ keeps ready => ready.keep keeps

/-- The transaction of `apply` goes through on a report that is ready. -/
theorem Ready.apply {s : Ledger} (ready : Ready deployment source s) :
    ∃ result s', Transaction.exec (.apply source.id) s = .ok (result, s') := by
  obtain ⟨report, found, rfl, status, count, valid, staged, errors⟩ := ready
  have tests : readyForApply s.db report = true := by
    have staged : s.db.stagedRows report.id = deployment.fileRows (reportSource report) := staged
    simp [readyForApply, status, count, valid.lines.1, staged, valid.length]
  obtain ⟨after, counters, statements⟩ :=
    applyStatements_some s.db.inventory s.db.now (staged ▸ valid.distinct)
  have found : s.db.reports.find (reportSource report).id = some report := found
  simp only [Transaction.exec, applyReport, found, tests, statements, Bool.true_eq_false,
    if_false]
  exact ⟨_, _, rfl⟩

theorem wp_runSteps {spec : Spec workerInterface Ledger} {post : Post workerInterface Ledger Unit}
    (stable : StablePost spec post) (reportId : Nat) :
    ∀ (steps : List ApplyStep) (log : List (Commit workerInterface)) (s : Ledger),
      post (.ok ()) log s →
        (∀ e, (spec.loses ∧ e = .lockConnectionLost) ∨
            (∃ step, spec.raises (.runHook reportId step) e) → post (.error e) log s) →
          wp spec (runSteps reportId steps) post log s := by
  intro steps
  induction steps with
  | nil =>
      intro log s done _
      exact wp_pure _ stable done
  | cons step rest ih =>
      intro log s done fails
      simp only [runSteps]
      refine wp_then_invoke _ _ _ stable ?_ ?_
      · exact wp_then_assertLock _ _ _ stable (ih log s done fails) fun loses =>
          fails _ (Or.inl ⟨loses, rfl⟩)
      · intro e raised
        exact fails e (Or.inr ⟨step, raised⟩)

theorem wp_apply {log : List (Commit workerInterface)} {s : Ledger}
    (ready : Ready deployment source s) :
    wp (lockedSpec deployment faults) (apply source.id) (Applied deployment faults source) log s := by
  have stable := applied_stable deployment faults source
  unfold apply
  refine wp_then_assertLock _ _ _ stable ?_ fun loses => ⟨ready, Or.inl ⟨loses, rfl⟩⟩
  refine wp_bind _ _ _ stable (wp_runSteps (stablePost_bind _ _ stable) _ _ _ _ ?_ ?_)
  · refine wp_commit _ _ stable ready_stable ready ?_ ?_ ?_ ?_
    · intro s ready
      exact ⟨source, rfl, ready⟩
    · intro s result s' ready executed
      refine ⟨?_, fun e impossible => impossible.elim⟩
      obtain ⟨report, found, same, _⟩ := ready
      obtain ⟨db, ran, rfl⟩ := exec_apply executed
      obtain ⟨report', _, counters, found', _, _, _, changes⟩ := applyReport_changes ran
      rw [found] at found'
      cases found'
      exact ⟨_, congrArg ReportData.report changes.own, same, rfl⟩
    · intro s e ready refused
      obtain ⟨result, s', accepted⟩ := ready.apply
      simp only [lockedSpec] at refused
      rw [accepted] at refused
      cases refused
    · intro s e ready failed
      exact ⟨ready, Or.inr (.failed _ rfl failed)⟩
  · rintro e (lost | ⟨step, raised⟩)
    · exact ⟨ready, Or.inl lost⟩
    · exact ⟨ready, Or.inr (.raised _ rfl raised)⟩

/-- The handlers of a cycle let a lost lock through. -/
theorem wp_unlessLockLost {handler : PyException → WorkerProgram WorkerCycleOutcome}
    {e : PyException} {log : List (Commit workerInterface)} {s : Ledger}
    (handled : e ≠ .lockConnectionLost →
      wp (lockedSpec deployment faults) (handler e) (Ended source) log s) :
    wp (lockedSpec deployment faults) (unlessLockLost handler e) (Ended source) log s := by
  unfold unlessLockLost
  by_cases gone : e = .lockConnectionLost
  · rw [if_pos gone]
    exact wp_done _ (ended_stable _ _ _) trivial
  · rw [if_neg gone]
    exact handled gone

theorem wp_processApply {log : List (Commit workerInterface)} {s : Ledger}
    (ready : Ready deployment source s) :
    wp (lockedSpec deployment faults) (processApply source.id) (Ended source) log s := by
  have stable := ended_stable deployment faults source
  unfold processApply
  refine wp_handle _ _ _ stable (wp_bind _ _ _ (stablePost_handle _ _ stable)
    (wp_mono _ _ ?_ _ _ (wp_apply ready)))
  intro result log s applied
  cases result with
  | ok result =>
      obtain ⟨report, found, same, status⟩ := applied
      refine wp_pure _ (stablePost_handle _ _ stable) ?_
      exact ⟨report, found, same, status⟩
  | error e =>
      obtain ⟨ready, why⟩ := applied
      refine wp_unlessLockLost fun kept => ?_
      refine wp_handle _ _ _ stable ?_
      have stable' := stablePost_handle (lockedSpec deployment faults)
        (fun _ => Program.raise (i := workerInterface) (α := WorkerCycleOutcome) e) stable
      refine wp_then_assertLock _ _ _ stable' ?_ fun _ => wp_done _ stable trivial
      refine wp_then_commit _ _ _ stable' ready_stable ready ?_ ?_ ?_ ?_
      · intro s ready
        exact ⟨source, rfl, ready, e, kept, why.resolve_left fun lost => kept lost.2⟩
      · intro s reply s' ready executed
        refine ⟨wp_pure _ stable' ?_, fun e impossible => impossible.elim⟩
        obtain ⟨db, marked, rfl⟩ := store_ok executed
        obtain ⟨report, found, same, status, _⟩ := ready
        obtain ⟨added, changes⟩ := markFailed_changes marked
        rw [whileProcessing_found found status] at changes
        exact ⟨_, congrArg ReportData.report changes.own, same, rfl, rfl⟩
      · intro s e ready refused
        exact wp_done _ stable trivial
      · intro s e ready failed
        exact wp_done _ stable trivial

theorem claimed_stable :
    Stable (lockedSpec deployment faults) fun s => Claimed source s :=
  fun _ _ keeps claimed => claimed.keep keeps

theorem wp_processValidation (delivery : Delivery deployment)
    {log : List (Commit workerInterface)} {s : Ledger} (stored : Stored source s [] [])
    (written : Written deployment source.id log [] []) :
    wp (lockedSpec deployment faults) (processValidation deployment delivery source)
      (Ended source) log s := by
  have stable := ended_stable deployment faults source
  unfold processValidation
  refine wp_handle _ _ _ stable (wp_mono _ _ ?_ _ _ (wp_validate delivery stored written))
  intro result log s validated
  cases result with
  | ok outcome =>
      obtain ⟨_, ⟨rfl, ready⟩ | ⟨rfl, refused⟩⟩ := validated
      · obtain ⟨report, found, same, status, _, valid, _⟩ := ready
        exact ⟨report, found, same, status, valid.lines.1⟩
      · obtain ⟨report, found, same, status, kind, _⟩ := refused.report
        exact ⟨report, found, same, status, kind⟩
  | error e =>
      obtain ⟨claimed, why⟩ := validated
      refine wp_unlessLockLost fun kept => ?_
      refine wp_then_assertLock _ _ _ stable ?_ fun _ => trivial
      refine wp_then_commit _ _ _ stable claimed_stable claimed ?_ ?_ ?_ ?_
      · intro s claimed
        exact ⟨source, rfl, claimed, e, kept, why.resolve_left fun lost => kept lost.2⟩
      · intro s reply s' claimed executed
        refine ⟨wp_pure _ stable ?_, fun e impossible => impossible.elim⟩
        obtain ⟨db, marked, rfl⟩ := store_ok executed
        obtain ⟨report, found, same, status, _⟩ := claimed
        obtain ⟨added, changes⟩ := markFailed_changes marked
        rw [whileProcessing_found found status] at changes
        exact ⟨_, congrArg ReportData.report changes.own, same, rfl, rfl⟩
      · intro s e claimed refused
        trivial
      · intro s e claimed failed
        trivial

/-! ## The claim -/

theorem ready_of_complete {s : Ledger} {report : Report} (sound : LedgerSound deployment s)
    (found : s.db.reports.find report.id = some report) (status : report.status = .processing)
    (complete : validationIsComplete s.db report = true) :
    Ready deployment (reportSource report) s := by
  have own := (sound.reports report.id).processing found status
  unfold validationIsComplete at complete
  split at complete
  · cases complete
  · next counts =>
      rw [not_or] at counts
      obtain ⟨valid, staged, errors⟩ := own.handoff (Nat.pos_of_ne_zero counts.1)
      exact ⟨report, found, rfl, status, own.errorCount, valid, staged, errors⟩

/-- A claim that does not find its report ready has cleared its tables. -/
theorem stored_of_claim {s : Ledger} {db : Database} {report : Report}
    (changes : Changes s.db db report.id ⟨some (report.claim s.db.now), [], []⟩ s.db.inventory) :
    Stored (reportSource report) { s with db := db } [] [] where
  claimed := ⟨_, congrArg ReportData.report changes.own, rfl, rfl, rfl⟩
  staged := congrArg ReportData.staged changes.own
  errors := congrArg (fun data => data.errors.map ReportError.toValidationIssue) changes.own

/-- The work on a claimed report as the end of its cycle. -/
theorem wp_claimed {p : WorkerProgram WorkerCycleOutcome} {ready : Bool} {s : Ledger}
    (ends : wp (lockedSpec deployment faults) p (Ended source)
      [⟨.claim, some (source, ready)⟩] s) :
    wp (lockedSpec deployment faults) p CycleEnded [⟨.claim, some (source, ready)⟩] s := by
  refine wp_mono _ _ ?_ _ _ (wp_extends _ _ ends)
  intro result log s holds
  cases result with
  | ok outcome => exact Or.inr ⟨source, ready, holds⟩
  | error e => trivial

theorem wp_process (delivery : Delivery deployment) {s : Ledger}
    (sound : LedgerSound deployment s) :
    wp (lockedSpec deployment faults) (process deployment delivery) CycleEnded [] s := by
  have stable := cycleEnded_stable deployment faults
  have keeps : Stable (lockedSpec deployment faults) fun s => LedgerSound deployment s :=
    fun _ _ keeps sound => Keeps.sound keeps sound
  unfold process
  refine wp_then_commit _ _ _ stable keeps sound (fun _ _ => trivial) ?_ ?_ ?_
  · intro s reply s' sound executed
    refine ⟨?_, fun e impossible => impossible.elim⟩
    cases executed
    rcases claim_cases s.db with
      ⟨claimed, _⟩ | ⟨report, found, _, ⟨claimed, status, complete⟩ | ⟨db, claimed, _, changes⟩⟩
    · rw [claimed]
      exact wp_pure _ stable (Or.inl ⟨rfl, rfl⟩)
    · rw [claimed]
      exact wp_claimed (wp_processApply (ready_of_complete sound found status complete))
    · rw [claimed]
      refine wp_claimed (wp_processValidation delivery (stored_of_claim changes) ?_)
      exact ⟨rfl, by simp [stagingBatches], rfl, by simp [errorBatches]⟩
  · intro s e sound refused
    cases refused
  · intro s e sound failed
    trivial

end Locked

end StockImport.Worker
