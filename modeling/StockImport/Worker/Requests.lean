import StockImport.Worker.Validation

/-!
# What the workers ask for

The transactions that a cycle asks for after its claim, whatever the answers: those
of a validation write rows of the file and count them, those of an apply are the
apply and the note of its failure.
-/

set_option autoImplicit false

namespace StockImport.Worker

open Csv Db Tables Transactional

/-- The requests of a worker that has claimed a report. -/
def Asks (deployment : Deployment) (source : ReportSource) : Transaction → Prop
  | .writeStagingBatch reportId batch => reportId = source.id ∧
      ∀ row ∈ batch, row ∈ deployment.fileRows source
  | .markValidated reportId rowCount => reportId = source.id ∧
      (deployment.fileRun source).result = .ok ⟨rowCount, true⟩
  | _ => True

/-- The transactions of `validate`. -/
def Validates (deployment : Deployment) (source : ReportSource) : Transaction → Prop
  | .writeStagingBatch reportId batch => reportId = source.id ∧
      ∀ row ∈ batch, row ∈ deployment.fileRows source
  | .writeErrorBatch reportId _ => reportId = source.id
  | .insertDuplicateErrors reportId _ => reportId = source.id
  | .errorCount reportId => reportId = source.id
  | .finalizeValidationFailure reportId _ _ => reportId = source.id
  | .markValidated reportId rowCount => reportId = source.id ∧
      (deployment.fileRun source).result = .ok ⟨rowCount, true⟩
  | _ => False

/-- The transactions of a cycle on a report that was ready for apply, or was not. -/
def WorksOn (deployment : Deployment) (source : ReportSource) (ready : Bool) (t : Transaction) :
    Prop :=
  if ready then t = .apply source.id ∨ t = .markApplyFailed source.id
  else Validates deployment source t ∨ t = .markProcessingFailed source.id

/-- The writer holds rows of the file alone. -/
def HoldsRows (deployment : Deployment) (source : ReportSource) :
    Except PyException BatchWriter → Prop
  | .ok writer => ∀ row ∈ writer.stagingBatch, row ∈ deployment.fileRows source
  | .error _ => True

section Asks

variable {deployment : Deployment} {source : ReportSource} {asks : Transaction → Prop}

theorem asks_assertLock {α : Type} {f : Unit → WorkerProgram α}
    {ends : Except PyException α → Prop} (raises : ∀ e, ends (.error e))
    (next : (f ()).Ensures asks ends) :
    Program.Ensures asks ends (assertLockAlive >>= f) :=
  ensures_then (ensures_assertLock fun _ => trivial) raises fun _ => next

theorem asks_external {α : Type} {c : ExternalCall} {f : Unit → WorkerProgram α}
    {ends : Except PyException α → Prop} (raises : ∀ e, ends (.error e))
    (next : (f ()).Ensures asks ends) :
    Program.Ensures asks ends (external c >>= f) :=
  ensures_then (ensures_invoke fun _ => trivial) raises fun _ => next

theorem asks_transaction {α : Type} {t : Transaction} {f : t.Reply → WorkerProgram α}
    {ends : Except PyException α → Prop} (asked : asks t)
    (raises : ∀ e, ends (.error e))
    (next : ∀ reply, (f reply).Ensures asks ends) :
    Program.Ensures asks ends (inTransaction t >>= f) :=
  ensures_then (ensures_commit asked fun _ => trivial) raises next

theorem ensures_flushStaging {writer : BatchWriter}
    (holds : ∀ row ∈ writer.stagingBatch, row ∈ deployment.fileRows source) :
    (flushStaging source.id writer).Ensures (Validates deployment source)
      (HoldsRows deployment source) := by
  unfold flushStaging
  split
  · exact holds
  · refine asks_assertLock (fun _ => trivial) ?_
    refine asks_transaction ⟨rfl, holds⟩ (fun _ => trivial) fun _ => ?_
    intro row member
    cases member

theorem ensures_flushErrors {writer : BatchWriter}
    (holds : ∀ row ∈ writer.stagingBatch, row ∈ deployment.fileRows source) :
    (flushErrors source.id writer).Ensures (Validates deployment source)
      (HoldsRows deployment source) := by
  unfold flushErrors
  split
  · exact holds
  · refine asks_assertLock (fun _ => trivial) ?_
    exact asks_transaction rfl (fun _ => trivial) fun _ => holds

theorem ensures_addIssues {batchSize : Nat} : ∀ (found : List ValidationIssue)
    (writer : BatchWriter), (∀ row ∈ writer.stagingBatch, row ∈ deployment.fileRows source) →
      (addIssues batchSize source.id writer found).Ensures (Validates deployment source)
        (HoldsRows deployment source) := by
  intro found
  induction found with
  | nil => exact fun writer holds => holds
  | cons issue found ih =>
      intro writer holds
      simp only [addIssues, addIssue]
      refine ensures_bind (?_ : Program.Ensures _ (HoldsRows deployment source) _)
        (fun _ => trivial) ih
      split
      · exact ensures_flushErrors holds
      · exact holds

theorem ensures_runEvents (batchSize : Nat) : ∀ (events : List StreamEvent)
    (writer : BatchWriter),
      (∀ row ∈ events.flatMap StreamEvent.rows, row ∈ deployment.fileRows source) →
        (∀ row ∈ writer.stagingBatch, row ∈ deployment.fileRows source) →
          (runEvents batchSize source.id writer events).Ensures (Validates deployment source)
            (HoldsRows deployment source) := by
  intro events
  induction events with
  | nil => exact fun writer _ holds => holds
  | cons event events ih =>
      intro writer inFile holds
      have later : ∀ row ∈ events.flatMap StreamEvent.rows, row ∈ deployment.fileRows source :=
        fun row member => inFile row (by
          rw [List.flatMap_cons]
          exact List.mem_append_right _ member)
      cases event with
      | fetch =>
          simp only [runEvents]
          refine asks_assertLock (fun _ => trivial) ?_
          exact asks_external (fun _ => trivial) (ih writer later holds)
      | validRow row =>
          have added : ∀ other ∈ writer.stagingBatch ++ [row],
              other ∈ deployment.fileRows source := by
            intro other member
            rcases List.mem_append.mp member with old | new
            · exact holds other old
            · rw [List.mem_singleton.mp new]
              exact inFile row (by simp [StreamEvent.rows])
          simp only [runEvents, addValidRow]
          refine ensures_bind (?_ : Program.Ensures _ (HoldsRows deployment source) _)
            (fun _ => trivial) fun writer holds => ih writer later holds
          split
          · exact ensures_flushStaging added
          · exact added
      | issues found =>
          simp only [runEvents]
          exact ensures_bind (ensures_addIssues found writer holds) (fun _ => trivial)
            fun writer holds => ih writer later holds

theorem ensures_finishValidation {summary : CsvValidationSummary}
    (returned : (deployment.fileRun source).result = .ok summary) :
    (finishValidation deployment source.id summary).Ensures (Validates deployment source)
      fun _ => True := by
  unfold finishValidation
  refine asks_assertLock (fun _ => trivial) ?_
  refine asks_transaction rfl (fun _ => trivial) fun _ => ?_
  refine asks_assertLock (fun _ => trivial) ?_
  refine asks_transaction rfl (fun _ => trivial) fun count => ?_
  unfold concludeValidation
  split
  · refine asks_assertLock (fun _ => trivial) ?_
    exact asks_transaction rfl (fun _ => trivial) fun _ => trivial
  · split
    · trivial
    · next whole =>
        rw [not_or, Bool.not_eq_false] at whole
        refine asks_assertLock (fun _ => trivial) ?_
        refine asks_transaction ⟨rfl, ?_⟩ (fun _ => trivial) fun _ => trivial
        rw [returned, ← whole.1]

theorem ensures_validate (delivery : Delivery deployment) :
    (validate deployment delivery source).Ensures (Validates deployment source) fun _ => True := by
  obtain ⟨rows, _, result⟩ := delivery.run_file source
  have inFile : ∀ row ∈ (delivery.run source).rows, row ∈ deployment.fileRows source := by
    rw [rows]
    exact fun row member => member
  have events := ensures_runEvents deployment.batchSize (delivery.run source).events ⟨[], []⟩
    inFile (by simp)
  unfold validate consumeRun
  refine asks_assertLock (fun _ => trivial) ?_
  refine asks_external (fun _ => trivial) ?_
  refine ensures_bind events (fun _ => trivial) fun writer holds => ?_
  have ran : (Program.done (delivery.run source).result : WorkerProgram _).Ensures
      (Validates deployment source) fun result => result = (delivery.run source).result := rfl
  refine ensures_bind ran (fun _ => trivial) fun summary returned => ?_
  have flushed : (flushAll source.id writer).Ensures (Validates deployment source)
      (HoldsRows deployment source) :=
    ensures_bind (ensures_flushStaging holds) (fun _ => trivial)
      fun writer holds => ensures_flushErrors holds
  refine ensures_bind flushed (fun _ => trivial) fun _ _ => ensures_finishValidation ?_
  rw [← result, ← returned]

theorem ensures_runSteps : ∀ steps : List ApplyStep,
    (runSteps source.id steps).Ensures asks fun _ => True := by
  intro steps
  induction steps with
  | nil => trivial
  | cons step rest ih =>
      simp only [runSteps]
      refine asks_external (fun _ => trivial) ?_
      exact asks_assertLock (fun _ => trivial) ih

theorem ensures_unlessLockLost {handler : PyException → WorkerProgram WorkerCycleOutcome}
    (handled : ∀ e, (handler e).Ensures asks fun _ => True) (e : PyException) :
    (unlessLockLost handler e).Ensures asks fun _ => True := by
  unfold unlessLockLost
  split
  · trivial
  · exact handled e

theorem ensures_processApply :
    (processApply source.id).Ensures (WorksOn deployment source true) fun _ => True := by
  unfold processApply apply
  refine ensures_handle (ensures_then ?_ (fun _ => trivial) fun _ => trivial)
    (ensures_unlessLockLost fun e => ?_)
  · refine asks_assertLock (fun _ => trivial) ?_
    exact ensures_then (ensures_runSteps _) (fun _ => trivial)
      fun _ => ensures_commit (i := workerInterface) (t := .apply source.id) (Or.inl rfl)
        fun _ => trivial
  · refine ensures_handle ?_ fun _ => trivial
    refine asks_assertLock (fun _ => trivial) ?_
    exact asks_transaction (t := .markApplyFailed source.id) (Or.inr rfl) (fun _ => trivial)
      fun _ => trivial

theorem ensures_processValidation (delivery : Delivery deployment) :
    (processValidation deployment delivery source).Ensures (WorksOn deployment source false)
      fun _ => True := by
  unfold processValidation
  refine ensures_handle ((ensures_validate delivery).mono (fun t asked => Or.inl asked)
    fun _ _ => trivial) (ensures_unlessLockLost fun e => ?_)
  refine asks_assertLock (fun _ => trivial) ?_
  exact asks_transaction (t := .markProcessingFailed source.id) (Or.inr rfl) (fun _ => trivial)
    fun _ => trivial

theorem WorksOn.about {ready : Bool} {t : Transaction} (works : WorksOn deployment source ready t) :
    t.reportId = some source.id := by
  unfold WorksOn at works
  split at works
  · rcases works with rfl | rfl
    · rfl
    · rfl
  · rcases works with validates | rfl
    · cases t with
      | claim | markProcessingFailed _ | apply _ | markApplyFailed _ => exact validates.elim
      | writeStagingBatch _ _ | markValidated _ _ => exact congrArg some validates.1
      | writeErrorBatch _ _ | insertDuplicateErrors _ _ | errorCount _
      | finalizeValidationFailure _ _ _ => exact congrArg some validates
    · rfl

theorem WorksOn.asked {ready : Bool} {t : Transaction} (works : WorksOn deployment source ready t) :
    Asks deployment source t := by
  unfold WorksOn at works
  split at works
  · rcases works with rfl | rfl
    · trivial
    · trivial
  · rcases works with validates | rfl
    · cases t with
      | claim | markProcessingFailed _ | apply _ | markApplyFailed _ => exact validates.elim
      | writeStagingBatch _ _ | markValidated _ _ => exact validates
      | writeErrorBatch _ _ | insertDuplicateErrors _ _ | errorCount _
      | finalizeValidationFailure _ _ _ => trivial
    · trivial

end Asks

/-! ## A validation ends with its first exception -/

theorem propagates_checked {α : Type} {t : Transaction} {f : t.Reply → WorkerProgram α}
    (next : ∀ reply, (f reply).Propagates) :
    (assertLockAlive >>= fun _ => inTransaction t >>= f).Propagates :=
  propagates_bind propagates_assertLock fun _ => propagates_bind propagates_commit next

theorem propagates_flushStaging (reportId : Nat) (writer : BatchWriter) :
    (flushStaging reportId writer).Propagates := by
  unfold flushStaging
  split
  · trivial
  · exact propagates_checked fun _ => trivial

theorem propagates_flushErrors (reportId : Nat) (writer : BatchWriter) :
    (flushErrors reportId writer).Propagates := by
  unfold flushErrors
  split
  · trivial
  · exact propagates_checked fun _ => trivial

theorem propagates_addIssues (batchSize reportId : Nat) : ∀ (found : List ValidationIssue)
    (writer : BatchWriter), (addIssues batchSize reportId writer found).Propagates := by
  intro found
  induction found with
  | nil => exact fun writer => trivial
  | cons issue found ih =>
      intro writer
      simp only [addIssues, addIssue]
      refine propagates_bind (?_ : Program.Propagates _) ih
      split
      · exact propagates_flushErrors reportId _
      · trivial

theorem propagates_runEvents (batchSize reportId : Nat) : ∀ (events : List StreamEvent)
    (writer : BatchWriter), (runEvents batchSize reportId writer events).Propagates := by
  intro events
  induction events with
  | nil => exact fun writer => trivial
  | cons event events ih =>
      intro writer
      cases event with
      | fetch =>
          simp only [runEvents]
          exact propagates_bind propagates_assertLock fun _ =>
            propagates_bind (fun _ => trivial) fun _ => ih writer
      | validRow row =>
          simp only [runEvents, addValidRow]
          refine propagates_bind (?_ : Program.Propagates _) ih
          split
          · exact propagates_flushStaging reportId _
          · trivial
      | issues found =>
          simp only [runEvents]
          exact propagates_bind (propagates_addIssues batchSize reportId found writer) ih

theorem propagates_validate (deployment : Deployment) (delivery : Delivery deployment)
    (source : ReportSource) : (validate deployment delivery source).Propagates := by
  unfold validate consumeRun finishValidation flushAll
  refine propagates_bind propagates_assertLock fun _ => propagates_bind (fun _ => trivial) fun _ => ?_
  refine propagates_bind (propagates_runEvents _ _ _ _) fun writer => ?_
  refine propagates_bind (p := Program.done _) trivial fun summary => ?_
  refine propagates_bind (propagates_bind (propagates_flushStaging _ _) fun writer =>
    propagates_flushErrors _ writer) fun _ => ?_
  refine propagates_checked fun _ => propagates_checked fun count => ?_
  unfold concludeValidation
  split
  · exact propagates_checked fun _ => trivial
  · split
    · trivial
    · exact propagates_checked fun _ => trivial

end StockImport.Worker
