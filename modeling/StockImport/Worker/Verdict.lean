import StockImport.Worker.Draining

/-!
# Verdicts

A validation commits its verdict last.  In a run behind the lock a report that is
completed or failed by validation therefore says what its file says, however often
the work on it was cut short, whatever the batches and chunks, and whatever else is
in the queue.
-/

set_option autoImplicit false

namespace StockImport.Worker

open Csv Db Tables Transactional

/-! ## The verdict is the last commit -/

/-- The transaction that fails a report for its file. -/
def Refuses : Transaction → Prop
  | .finalizeValidationFailure _ _ _ => True
  | _ => False

/-- A part of a cycle that does not ask for it. -/
abbrev Spares {α : Type} (p : WorkerProgram α) : Prop :=
  p.Ensures (fun t => ¬ Refuses t) fun _ => True

theorem spares_checked {α : Type} {t : Transaction} {f : t.Reply → WorkerProgram α}
    (other : ¬ Refuses t) (next : ∀ reply, Spares (f reply)) :
    Spares (assertLockAlive >>= fun _ => inTransaction t >>= f) :=
  asks_assertLock (fun _ => trivial) (asks_transaction other (fun _ => trivial) next)

theorem spares_flushStaging (reportId : Nat) (writer : BatchWriter) :
    Spares (flushStaging reportId writer) := by
  unfold flushStaging
  split
  · trivial
  · exact spares_checked not_false fun _ => trivial

theorem spares_flushErrors (reportId : Nat) (writer : BatchWriter) :
    Spares (flushErrors reportId writer) := by
  unfold flushErrors
  split
  · trivial
  · exact spares_checked not_false fun _ => trivial

theorem spares_addIssues (batchSize reportId : Nat) : ∀ (found : List ValidationIssue)
    (writer : BatchWriter), Spares (addIssues batchSize reportId writer found) := by
  intro found
  induction found with
  | nil => exact fun writer => trivial
  | cons issue found ih =>
      intro writer
      simp only [addIssues, addIssue]
      refine ensures_then (?_ : Spares _) (fun _ => trivial) ih
      split
      · exact spares_flushErrors reportId _
      · trivial

theorem spares_runEvents (batchSize reportId : Nat) : ∀ (events : List StreamEvent)
    (writer : BatchWriter), Spares (runEvents batchSize reportId writer events) := by
  intro events
  induction events with
  | nil => exact fun writer => trivial
  | cons event events ih =>
      intro writer
      cases event with
      | fetch =>
          simp only [runEvents]
          exact asks_assertLock (fun _ => trivial) (asks_external (fun _ => trivial) (ih writer))
      | validRow row =>
          simp only [runEvents, addValidRow]
          refine ensures_then (?_ : Spares _) (fun _ => trivial) ih
          split
          · exact spares_flushStaging reportId _
          · trivial
      | issues found =>
          simp only [runEvents]
          exact ensures_then (spares_addIssues batchSize reportId found writer)
            (fun _ => trivial) ih

theorem WorksOn.spares {deployment : Deployment} {source : ReportSource} {t : Transaction}
    (works : WorksOn deployment source true t) : ¬ Refuses t := by
  rw [WorksOn, if_pos rfl] at works
  rcases works with rfl | rfl
  · exact not_false
  · exact not_false

/-- A program that has checked its lock goes on. -/
theorem closes_checked {t : Transaction} {f : t.Reply → WorkerProgram WorkerCycleOutcome}
    (other : ¬ Refuses t) (next : ∀ reply, (f reply).Closes Refuses .validationFailed) :
    (assertLockAlive >>= fun _ => inTransaction t >>= f).Closes Refuses .validationFailed :=
  closes_bind (ensures_assertLock fun _ => trivial) fun _ =>
    closes_bind (ensures_commit (i := workerInterface) other fun _ => trivial) next

theorem closes_concludeValidation (reportId : Nat) (summary : CsvValidationSummary)
    (errorCount : Nat) :
    (concludeValidation reportId summary errorCount).Closes Refuses .validationFailed := by
  unfold concludeValidation
  split
  · exact closes_bind (ensures_assertLock fun _ => trivial) fun _ => closes_last
  · split
    · trivial
    · exact closes_checked not_false fun _ => trivial

theorem closes_validate (deployment : Deployment) (delivery : Delivery deployment)
    (source : ReportSource) :
    (validate deployment delivery source).Closes Refuses .validationFailed := by
  unfold validate consumeRun finishValidation flushAll
  refine closes_bind (ensures_assertLock fun _ => trivial) fun _ => ?_
  refine closes_bind (ensures_invoke fun _ => trivial) fun _ => ?_
  refine closes_bind (spares_runEvents _ _ _ _) fun writer => ?_
  refine closes_bind (p := Program.done _) trivial fun summary => ?_
  refine closes_bind (ensures_then (spares_flushStaging _ _) (fun _ => trivial) fun writer =>
    spares_flushErrors _ writer) fun _ => ?_
  refine closes_checked not_false fun _ => closes_checked not_false fun count => ?_
  exact closes_concludeValidation source.id summary count

/-- Once it has committed a verdict against the file, a cycle reports
`validation_failed` and nothing else. -/
theorem closes_process (deployment : Deployment) (delivery : Delivery deployment) :
    (process deployment delivery).Closes Refuses .validationFailed := by
  unfold process
  refine closes_bind (ensures_commit (i := workerInterface) (t := .claim) not_false
    fun _ => trivial) fun claimed => ?_
  match claimed with
  | none => trivial
  | some (source, true) =>
      have applies : (processApply source.id).Ensures (WorksOn deployment source true)
          fun _ => True := ensures_processApply
      exact closes_of_ensures (applies.mono (fun t works => works.spares) fun _ _ => trivial)
  | some (source, false) =>
      refine closes_handle (closes_validate deployment delivery source) fun e => ?_
      refine closes_of_ensures (ensures_unlessLockLost (fun e => ?_) e)
      exact spares_checked not_false fun _ => trivial

/-! ## What stands behind it -/

/-- The report that a cycle claimed and reports as failed by validation is refused. -/
def Concluded (deployment : Deployment) : Post workerInterface Ledger WorkerCycleOutcome :=
  fun result log s => result = .ok .validationFailed →
    ∃ source ready more, log = ⟨.claim, some (source, ready)⟩ :: more ∧
      (∀ commit ∈ more, WorksOn deployment source ready commit.transaction) ∧
      Refused deployment source s

section Concluded

variable {deployment : Deployment} {faults : Faults} {source : ReportSource}

theorem concluded_stable (deployment : Deployment) (faults : Faults) :
    StablePost (lockedSpec deployment faults) (Concluded deployment) := by
  intro result log s s' keeps concluded same
  obtain ⟨source, ready, more, begins, works, refused⟩ := concluded same
  exact ⟨source, ready, more, begins, works, refused.keep keeps⟩

/-- The work on a claimed report refuses it where it says so. -/
def Refusing (deployment : Deployment) (source : ReportSource) :
    Post workerInterface Ledger WorkerCycleOutcome :=
  fun result _ s => result = .ok .validationFailed → Refused deployment source s

theorem refusing_stable (deployment : Deployment) (faults : Faults) (source : ReportSource) :
    StablePost (lockedSpec deployment faults) (Refusing deployment source) :=
  fun _ _ _ _ keeps refusing same => (refusing same).keep keeps

theorem wp_processApply_refusing {log : List (Commit workerInterface)} {s : Ledger}
    (ready : Ready deployment source s) :
    wp (lockedSpec deployment faults) (processApply source.id) (Refusing deployment source)
      log s := by
  have never : (processApply source.id).Ensures (fun _ => True)
      fun result => result ≠ .ok .validationFailed := by
    unfold processApply apply
    refine ensures_handle (ensures_then (ensures_any _) (fun _ same => by cases same)
      fun _ same => by cases same) fun e => ?_
    unfold unlessLockLost
    split
    · intro same
      cases same
    · refine ensures_handle (ensures_then (ensures_any _) (fun _ same => by cases same) fun _ => ?_)
        fun _ same => by cases same
      exact ensures_then (ensures_any _) (fun _ same => by cases same) fun _ same => by cases same
  refine wp_mono _ _ ?_ _ _ (wp_ends _ _ never (wp_processApply ready))
  intro result log s ends same
  exact absurd same ends.1

/-- The rule for the validation of a claimed report: it ends in a decision, in the note
that it failed, or with the lock lost or the note rolled back. -/
theorem wp_processValidation_rule {post : Post workerInterface Ledger WorkerCycleOutcome}
    (stable : StablePost (lockedSpec deployment faults) post) (delivery : Delivery deployment)
    {log : List (Commit workerInterface)} {s : Ledger} (stored : Stored source s [] [])
    (written : Written deployment source.id log [] [])
    (decided : ∀ outcome log s, Validated deployment faults source (.ok outcome) log s →
      post (.ok outcome) log s)
    (noted : ∀ e log s report, Blames deployment faults source e →
      s.db.reports.find source.id = some report → reportSource report = source →
        WorkerCycleOutcome.processingFailed.Names report → post (.ok .processingFailed) log s)
    (lost : faults.loses ∨ Blames deployment faults source .lockConnectionLost →
      ∀ log s, post (.error .lockConnectionLost) log s)
    (rolledBack : ∀ e log s, faults.fails (.markProcessingFailed source.id) e →
      post (.error e) log s) :
    wp (lockedSpec deployment faults) (processValidation deployment delivery source) post log s := by
  unfold processValidation
  refine wp_handle _ _ _ stable (wp_mono _ _ ?_ _ _ (wp_validate delivery stored written))
  intro result log s validated
  cases result with
  | ok outcome => exact decided outcome log s validated
  | error e =>
      obtain ⟨claimed, why⟩ := validated
      change wp (lockedSpec deployment faults) (unlessLockLost _ e) post log s
      unfold unlessLockLost
      by_cases gone : e = .lockConnectionLost
      · rw [if_pos gone]
        refine wp_done _ stable ?_
        subst gone
        exact lost (why.imp And.left id) log s
      · rw [if_neg gone]
        have blames := why.resolve_left fun isLost => gone isLost.2
        refine wp_then_assertLock _ _ _ stable ?_ fun loses => lost (Or.inl loses) log s
        refine wp_then_commit _ _ _ stable claimed_stable claimed ?_ ?_ ?_ ?_
        · intro s claimed
          exact ⟨source, rfl, claimed, e, gone, blames⟩
        · intro s reply s' claimed executed
          refine ⟨wp_pure _ stable ?_, fun e impossible => impossible.elim⟩
          obtain ⟨db, marked, rfl⟩ := store_ok executed
          obtain ⟨report, found, same, status, _⟩ := claimed
          obtain ⟨added, changes⟩ := markFailed_changes marked
          rw [whileProcessing_found found status] at changes
          exact noted e _ _ _ blames (congrArg ReportData.report changes.own) same ⟨rfl, rfl⟩
        · intro s e claimed refused
          obtain ⟨_, _, accepted, _⟩ := exec_note (Or.inl rfl) (started_of_claimed claimed)
          cases accepted.symm.trans refused
        · intro s e _ failed
          exact rolledBack e _ s failed

theorem wp_processValidation_refusing (delivery : Delivery deployment)
    {log : List (Commit workerInterface)} {s : Ledger} (stored : Stored source s [] [])
    (written : Written deployment source.id log [] []) :
    wp (lockedSpec deployment faults) (processValidation deployment delivery source)
      (Refusing deployment source) log s := by
  refine wp_processValidation_rule (refusing_stable deployment faults source) delivery stored written
    ?_ (fun _ _ _ _ _ _ _ _ same => by cases same) (fun _ _ _ same => by cases same)
    fun _ _ _ _ same => by cases same
  rintro outcome log s ⟨_, ⟨rfl, _⟩ | ⟨_, refused⟩⟩ same
  · cases same
  · exact refused

/-- The work on a claimed report as the end of its cycle. -/
theorem wp_concluded {p : WorkerProgram WorkerCycleOutcome} {ready : Bool} {s : Ledger}
    (ensures : p.Ensures (WorksOn deployment source ready) fun _ => True)
    (refusing : wp (lockedSpec deployment faults) p (Refusing deployment source)
      [⟨.claim, some (source, ready)⟩] s) :
    wp (lockedSpec deployment faults) p (Concluded deployment)
      [⟨.claim, some (source, ready)⟩] s := by
  refine wp_mono _ _ ?_ _ _ (wp_logs (lockedSpec deployment faults)
    [⟨.claim, some (source, ready)⟩] p _ s ensures ⟨[], by simp, by simp⟩ refusing)
  rintro result _ s ⟨refusing, more, rfl, works⟩ same
  exact ⟨source, ready, more, rfl, works, refusing same⟩

theorem wp_process_concluded (delivery : Delivery deployment) {s : Ledger}
    (sound : LedgerSound deployment s) :
    wp (lockedSpec deployment faults) (process deployment delivery) (Concluded deployment)
      [] s := by
  have stable := concluded_stable deployment faults
  have keeps : Stable (lockedSpec deployment faults) fun s => LedgerSound deployment s :=
    fun _ _ keeps sound => Keeps.sound keeps sound
  unfold process
  refine wp_then_commit _ _ _ stable keeps sound (fun _ _ => trivial) ?_ ?_ ?_
  · intro s reply s' sound executed
    refine ⟨?_, fun e impossible => impossible.elim⟩
    cases executed
    rcases claim_cases s.db with
      ⟨claimed, _⟩ | ⟨report, found, _, ⟨claimed, status, complete⟩ | ⟨db, claimed, _, changes⟩⟩
    · rw [claimed]
      exact wp_pure _ stable fun same => by cases same
    · rw [claimed]
      exact wp_concluded ensures_processApply
        (wp_processApply_refusing (ready_of_complete sound found status complete))
    · rw [claimed]
      refine wp_concluded (ensures_processValidation delivery)
        (wp_processValidation_refusing delivery (stored_of_claim changes) ?_)
      exact ⟨rfl, by simp [stagingBatches], rfl, by simp [errorBatches]⟩
  · intro s e sound refused
    cases refused
  · intro s e sound failed same
    cases same

theorem concluded_guarantees (deployment : Deployment) :
    Guarantees (service deployment) (lockedSpec deployment .any) (Locked deployment .any)
      (Concluded deployment) :=
  { any_guarantees deployment with
    starts := fun delivery _ locked => wp_process_concluded delivery locked.sound }

theorem LockedRun.concludes {world : ServiceWorld} (run : LockedRun deployment world) {w : Nat}
    {thread : Thread workerInterface WorkerCycleOutcome}
    (running : world.threads w = some thread) :
    wp (lockedSpec deployment .any) thread.program (Concluded deployment) thread.log
      world.shared :=
  (exclusive_sound (concluded_guarantees deployment) ServiceWorld.empty_idle (.empty _ _)
    (serialised_exclusive ServiceWorld.empty_idle run.permitted)).2 w thread running
    (run.current running)

end Concluded

/-! ## What the tables say about the file -/

/-- Completed, or failed for its file. -/
def Judged (report : Report) : Prop :=
  report.status = .completed ∨ report.status = .failed ∧ report.failureKind = some .validation

/-- The verdict on a report that has one. -/
structure Verdict (deployment : Deployment) (s : Ledger) (report : Report) : Prop where
  completed : report.status = .completed →
    ValidFile deployment (reportSource report) report.rowCount
  refused : report.status = .failed → report.failureKind = some .validation →
    Refused deployment (reportSource report) s

theorem Refused.of_data {deployment : Deployment} {source : ReportSource} {s s' : Ledger}
    (refused : Refused deployment source s)
    (same : s'.db.dataOf source.id = s.db.dataOf source.id) : Refused deployment source s' := by
  obtain ⟨⟨report, found, rest⟩, staged, errors, wrong⟩ := refused
  refine ⟨⟨report, (congrArg ReportData.report same).trans found, rest⟩,
    (congrArg ReportData.staged same).trans staged, ?_, wrong⟩
  have stored : s'.db.errorsOf source.id = s.db.errorsOf source.id :=
    congrArg ReportData.errors same
  rw [stored]
  exact errors

/-- Where a verdict can come from. -/
inductive Judges (deployment : Deployment) (t : Transaction) (data data' : ReportData) : Prop
  | same (unchanged : data' = data)
  | unjudged (open_ : ∀ report, data'.report = some report → ¬ Judged report)
  | refused (about : Refuses t)
  | completed (whole : ∀ report, data'.report = some report → report.status = .completed ∧
      ValidFile deployment (reportSource report) report.rowCount)

theorem Changes.judges {deployment : Deployment} {t : Transaction} {db db' : Database} {id : Nat}
    {data : ReportData} {inventory : Inventory} (changes : Changes db db' id data inventory)
    (own : Judges deployment t (db.dataOf id) data) :
    ∀ other, Judges deployment t (db.dataOf other) (db'.dataOf other) := by
  intro other
  by_cases same : other = id
  · rw [same, changes.own]
    exact own
  · exact .same (changes.others other same)

theorem not_judged_processing {report : Report} (status : report.status = .processing) :
    ¬ Judged report := by
  rintro (completed | ⟨failed, _⟩)
  · cases status.symm.trans completed
  · cases status.symm.trans failed

/-- A change of a report that stays in `processing`. -/
theorem Changes.judges_processing {deployment : Deployment} {t : Transaction} {db db' : Database}
    {id : Nat} {found : Option Report} {report : Report} {staged : List ValidatedRow}
    {errors : List ReportError} {inventory : Inventory} (same : found = some report)
    (changes : Changes db db' id ⟨found, staged, errors⟩ inventory)
    (status : report.status = .processing) :
    ∀ other, Judges deployment t (db.dataOf other) (db'.dataOf other) := by
  refine Changes.judges changes (.unjudged ?_)
  intro after isAfter
  cases same.symm.trans isAfter
  exact not_judged_processing status

/-- A report that fails for another reason. -/
theorem Changes.judges_failed {deployment : Deployment} {t : Transaction} {db db' : Database}
    {id : Nat} {report report' : Report} {staged : List ValidatedRow} {errors : List ReportError}
    {inventory : Inventory} {set : Report → Report}
    (changes : Changes db db' id
      ⟨(db.reports.find id).map (whileProcessing set), staged, errors⟩ inventory)
    (found : db.reports.find id = some report) (status : report.status = .processing)
    (after : set report = report') (failed : report'.status = .failed)
    (kind : report'.failureKind = some .processing) :
    ∀ other, Judges deployment t (db.dataOf other) (db'.dataOf other) := by
  rw [whileProcessing_found found status, after] at changes
  refine Changes.judges changes (.unjudged ?_)
  intro last isLast
  cases isLast
  rintro (completed | ⟨_, validation⟩)
  · cases failed.symm.trans completed
  · cases kind.symm.trans validation

/-- A verdict comes from a validation that failed or from an apply. -/
theorem transaction_judges {deployment : Deployment} {faults : Faults} {t : Transaction}
    {reply : t.Reply} {s s' : Ledger} (pre : Pre deployment faults s t)
    (executed : t.exec s = .ok (reply, s')) :
    ∀ id, Judges deployment t (s.db.dataOf id) (s'.db.dataOf id) := by
  cases t with
  | claim =>
      cases executed
      rcases claim_cases s.db with
        ⟨claimed, _⟩ | ⟨report, found, _, ⟨claimed, _⟩ | ⟨db', claimed, _, changes⟩⟩
      · rw [claimed]
        exact fun id => .same rfl
      · rw [claimed]
        exact fun id => .same rfl
      · rw [claimed]
        exact Changes.judges_processing rfl changes rfl
  | errorCount id =>
      cases executed
      exact fun id => .same rfl
  | writeStagingBatch id batch =>
      obtain ⟨source, rfl, report, found, _, status, _⟩ := pre
      obtain ⟨db, written, rfl⟩ := store_ok executed
      exact Changes.judges_processing found (writeStagingBatch_changes written) status
  | writeErrorBatch id batch =>
      obtain ⟨source, rfl, report, found, _, status, _⟩ := pre
      obtain ⟨db, written, rfl⟩ := store_ok executed
      obtain ⟨added, _, changes⟩ := writeErrorBatch_changes written
      exact Changes.judges_processing found changes status
  | insertDuplicateErrors id rawValueChars =>
      obtain ⟨source, rfl, report, found, _, status, _⟩ := pre
      obtain ⟨db, written, rfl⟩ := store_ok executed
      obtain ⟨added, _, changes⟩ := insertErrors_changes written
      exact Changes.judges_processing found changes status
  | finalizeValidationFailure id rowCount count =>
      exact fun id => .refused trivial
  | markValidated id rowCount =>
      obtain ⟨source, rfl, ⟨report, found, _, status, _⟩, _⟩ := pre
      cases executed
      have changes := markValidated_changes source.id rowCount s.db
      rw [whileProcessing_found found status] at changes
      exact Changes.judges_processing rfl changes status
  | markProcessingFailed id =>
      obtain ⟨source, rfl, ⟨report, found, _, status, _⟩, _⟩ := pre
      obtain ⟨db, written, rfl⟩ := store_ok executed
      obtain ⟨added, changes⟩ := markFailed_changes written
      exact Changes.judges_failed changes found status rfl rfl rfl
  | markApplyFailed id =>
      obtain ⟨source, rfl, ⟨report, found, _, status, _⟩, _⟩ := pre
      obtain ⟨db, written, rfl⟩ := store_ok executed
      obtain ⟨added, changes⟩ := markFailed_changes written
      exact Changes.judges_failed changes found status rfl rfl rfl
  | apply id =>
      obtain ⟨source, rfl, report, found, same, _, _, valid, _⟩ := pre
      obtain ⟨db, ran, rfl⟩ := exec_apply executed
      obtain ⟨report', _, counters, found', _, _, _, changes⟩ := applyReport_changes ran
      cases found.symm.trans found'
      refine Changes.judges changes (.completed ?_)
      intro after isAfter
      cases isAfter
      have again : reportSource (report.complete s.db.now counters) = source := same
      exact ⟨rfl, again ▸ valid⟩

/-! ## Verdicts of a run -/

section Runs

variable {deployment : Deployment} {world next : ServiceWorld}

theorem LockedRun.closes (run : LockedRun deployment world) {w : Nat}
    {thread : Thread workerInterface WorkerCycleOutcome}
    (running : world.threads w = some thread) :
    thread.program.Closes Refuses .validationFailed :=
  reachable_closes ServiceWorld.empty_idle (closes_process deployment) run w thread running

/-- The step that commits a verdict against a file leaves its report refused. -/
theorem LockedRun.refuses (run : LockedRun deployment world) {w : Nat}
    {fault : Fault workerInterface} {before after : Thread workerInterface WorkerCycleOutcome}
    {id rowCount count : Nat} {reply : Unit}
    (serialised : Serialised world (.run w fault : ServiceAction deployment))
    (atomic : Atomic world (.run w fault : ServiceAction deployment))
    (stepped : (service deployment).step world (.run w fault) = some next)
    (was : world.threads w = some before)
    (ran : before.run (service deployment).exec fault world.shared =
      some (after, next.shared, some ⟨.finalizeValidationFailure id rowCount count, reply⟩)) :
    ∃ source, source.id = id ∧ Refused deployment source next.shared := by
  have answered : ∀ e, fault ≠ .unknown e := by
    rintro e rfl
    obtain ⟨_, _, ⟨_, none, _⟩ | ⟨t, _, tail, program, _⟩⟩ := Thread.run_cases ran
    · cases none
    · exact atomic before t tail was program
  have ended := (Thread.run_closes (run.closes was) ran).2 _ _ rfl trivial answered
  obtain ⟨_, _, ⟨_, none, _⟩ | ⟨_, _, _, _, _, same, logged⟩⟩ := Thread.run_cases ran
  · cases none
  · cases same
    have later : LockedRun deployment next := .step (.run w fault) run ⟨serialised, atomic⟩ stepped
    have running : next.threads w = some after := by
      obtain ⟨before', after', s', commit', was', ran', rfl⟩ := step_run stepped
      cases was.symm.trans was'
      cases ran.symm.trans ran'
      exact Function.update_self _ _ _
    have holds := later.concludes running
    rw [ended] at holds
    obtain ⟨source, ready, more, begins, works, refused⟩ :=
      holds next.shared (Keeps.refl deployment _) rfl
    refine ⟨source, ?_, refused⟩
    -- the claim of the attempt stands first, so the verdict is among the rest
    rw [logged] at begins
    have member : (⟨.finalizeValidationFailure id rowCount count, reply⟩ : Commit workerInterface) ∈
        (⟨.claim, some (source, ready)⟩ :: more : List (Commit workerInterface)) := by
      rw [← begins]
      exact List.mem_append_right _ (List.mem_singleton_self _)
    rcases List.mem_cons.mp member with same | inRest
    · cases same
    · exact (Option.some.inj (works _ inRest).about).symm

theorem Verdict.keep {s s' : Ledger} {report : Report} (verdict : Verdict deployment s report)
    (same : s'.db.dataOf report.id = s.db.dataOf report.id) : Verdict deployment s' report :=
  ⟨verdict.completed, fun failed kind => (verdict.refused failed kind).of_data same⟩

theorem Verdict.unjudged {s : Ledger} {report : Report} (open_ : ¬ Judged report) :
    Verdict deployment s report :=
  ⟨fun completed => absurd (Or.inl completed) open_,
    fun failed kind => absurd (Or.inr ⟨failed, kind⟩) open_⟩

/-- Every report of a locked run that has a verdict has that of its file. -/
theorem LockedRun.verdict (run : LockedRun deployment world) :
    ∀ report, world.shared.db.reports.find report.id = some report →
      Verdict deployment world.shared report := by
  induction run with
  | start =>
      intro report found
      cases found
  | @step world next action before admitted stepped ih =>
      intro report found
      have sound := LockedRun.sound (.step action before admitted stepped)
      have fromData : next.shared.db.dataOf report.id = world.shared.db.dataOf report.id →
          Verdict deployment next.shared report := fun same =>
        (ih report ((congrArg ReportData.report same).symm.trans found)).keep same
      rcases step_shared stepped with ⟨same, _⟩ | ⟨e, _, happened, _⟩ |
        ⟨w, fault, thread, after, t, reply, rfl, was, ran, executed, _⟩
      · exact fromData (by rw [same])
      · have moves : ∀ id, Moves deployment .any (world.shared.db.dataOf id)
            (next.shared.db.dataOf id) := environment_moves happened
        rcases moves report.id with
          same | ⟨_, fresh, after, status⟩ | ⟨old, _, isOld, _⟩
        · exact fromData same
        · refine .unjudged ?_
          cases after.symm.trans found
          rintro (completed | ⟨failed, _⟩)
          · cases status.symm.trans completed
          · cases status.symm.trans failed
        · exact fromData ((environment_keeps happened).data isOld)
      · have mine := LockedRun.current before was
        obtain ⟨pre, _⟩ := (LockedRun.tracks before).request (any_guarantees deployment)
          (atomic_permits admitted.2) was mine ran |>.2 _ rfl
        cases transaction_judges pre executed report.id with
        | same unchanged => exact fromData unchanged
        | unjudged open_ => exact .unjudged (open_ report found)
        | completed whole =>
            obtain ⟨status, valid⟩ := whole report found
            refine ⟨fun _ => valid, fun failed _ => ?_⟩
            cases status.symm.trans failed
        | refused about =>
            cases t with
            | claim | writeStagingBatch _ _ | writeErrorBatch _ _ | insertDuplicateErrors _ _
            | errorCount _ | markValidated _ _ | markProcessingFailed _ | apply _
            | markApplyFailed _ => exact about.elim
            | finalizeValidationFailure id rowCount count =>
                obtain ⟨source, rfl, refused⟩ :=
                  LockedRun.refuses before admitted.1 admitted.2 stepped was ran
                by_cases own : report.id = source.id
                · obtain ⟨other, isOther, same, failed, _⟩ := refused.report
                  rw [← own] at isOther
                  cases isOther.symm.trans found
                  refine ⟨fun completed => ?_, fun _ _ => same ▸ refused⟩
                  cases failed.symm.trans completed
                · have stored : world.shared.store (.ok (Db.finalizeValidationFailure source.id
                      rowCount count world.shared.db)) = .ok (reply, next.shared) := executed
                  obtain ⟨_, written, shared⟩ := store_ok stored
                  cases written
                  refine fromData ?_
                  rw [shared]
                  exact (finalizeValidationFailure_changes source.id rowCount count _).others _ own

end Runs

/-! ## The verdict is that of the file -/

/-- The row and the errors of a report are those of its file, the errors in the order of
their ids, which `insertDuplicateErrors` assumes for those of the pairs. -/
structure FollowsFile (deployment : Deployment) (s : Ledger) (report : Report) : Prop where
  status : report.status = .completed ↔ deployment.fileIssues (reportSource report) = [] ∧
    DistinctPairs (deployment.fileRows (reportSource report))
  errors : (s.db.errorsOf report.id).map ReportError.toValidationIssue =
    deployment.fileIssues (reportSource report) ++ deployment.duplicateErrors (reportSource report)
  errorCount : report.errorCount = (s.db.errorsOf report.id).length
  rowCount : deployment.Counts (reportSource report) report.rowCount
  rows : report.status = .completed →
    report.rowCount = (deployment.fileRows (reportSource report)).length
  staged : s.db.stagedRows report.id = []

theorem Verdict.follows {deployment : Deployment} {s : Ledger} {report : Report}
    (sound : LedgerSound deployment s) (found : s.db.reports.find report.id = some report)
    (verdict : Verdict deployment s report) (judged : Judged report) :
    FollowsFile deployment s report := by
  rcases judged with completed | ⟨failed, kind⟩
  · have valid := verdict.completed completed
    have own := sound.reports report.id
    have isReport : (s.db.dataOf report.id).report = some report := found
    simp only [Sound, isReport, SoundReport, completed] at own
    have stored : s.db.errorsOf report.id = [] := own.errors
    have none := (allErrors_eq_nil deployment (reportSource report)).mpr
      ⟨valid.clean, valid.distinct⟩
    refine ⟨⟨fun _ => ⟨valid.clean, valid.distinct⟩, fun _ => completed⟩, ?_, ?_,
      ⟨true, valid.result⟩, fun _ => valid.length.symm, own.staged⟩
    · rw [stored, none]
      rfl
    · rw [stored]
      exact own.errorCount
  · obtain ⟨⟨other, isOther, _, _, _, count, rowCount⟩, staged, errors, wrong⟩ :=
      verdict.refused failed kind
    cases isOther.symm.trans found
    have notCompleted : report.status ≠ .completed := by
      intro completed
      cases failed.symm.trans completed
    refine ⟨⟨fun completed => absurd completed notCompleted, fun fine => absurd fine wrong⟩,
      errors, ?_, rowCount, fun completed => absurd completed notCompleted, staged⟩
    have lengths := congrArg List.length errors
    rw [List.length_map, List.length_append, Deployment.duplicateErrors, List.length_map] at lengths
    exact count.trans lengths.symm

/-- Two reports say the same of their files, under the same assumption. -/
structure Agrees (s s' : Ledger) (report report' : Report) : Prop where
  status : report'.status = report.status
  errors : (s'.db.errorsOf report'.id).map ReportError.toValidationIssue =
    (s.db.errorsOf report.id).map ReportError.toValidationIssue
  errorCount : report'.errorCount = report.errorCount
  rowCount : report'.rowCount = report.rowCount

theorem Deployment.Counts.unique {deployment : Deployment} {source : ReportSource}
    {rowCount rowCount' : Nat} (counts : deployment.Counts source rowCount)
    (counts' : deployment.Counts source rowCount') : rowCount = rowCount' := by
  obtain ⟨_, returned⟩ := counts
  obtain ⟨_, returned'⟩ := counts'
  cases returned.symm.trans returned'
  rfl

theorem FollowsFile.agrees {deployment deployment' : Deployment} {s s' : Ledger}
    {report report' : Report} (follows : FollowsFile deployment s report)
    (follows' : FollowsFile deployment' s' report') (judged : Judged report)
    (judged' : Judged report') (limits : deployment'.limits = deployment.limits)
    (file : deployment'.file (reportSource report') = deployment.file (reportSource report)) :
    Agrees s s' report report' := by
  have run : deployment'.fileRun (reportSource report') = deployment.fileRun (reportSource report) := by
    unfold Deployment.fileRun
    rw [limits, file]
  have rows : deployment'.fileRows (reportSource report') = deployment.fileRows (reportSource report) :=
    congrArg ValidationRun.rows run
  have issues : deployment'.fileIssues (reportSource report') =
      deployment.fileIssues (reportSource report) := congrArg ValidationRun.reported run
  have repeated : deployment'.duplicateErrors (reportSource report') =
      deployment.duplicateErrors (reportSource report) := by
    unfold Deployment.duplicateErrors Deployment.duplicateRawValueChars
    rw [limits, rows]
  have completed : report'.status = .completed ↔ report.status = .completed := by
    rw [follows'.status, follows.status, issues, rows]
  have errors : (s'.db.errorsOf report'.id).map ReportError.toValidationIssue =
      (s.db.errorsOf report.id).map ReportError.toValidationIssue := by
    rw [follows'.errors, follows.errors, issues, repeated]
  refine ⟨?_, errors, ?_, ?_⟩
  · rcases judged with done | ⟨failed, _⟩
    · rw [done, completed.mpr done]
    · rcases judged' with done | ⟨failed', _⟩
      · rw [done, completed.mp done]
      · rw [failed, failed']
  · have lengths := congrArg List.length errors
    rw [List.length_map, List.length_map] at lengths
    rw [follows'.errorCount, follows.errorCount, lengths]
  · have counts : deployment.Counts (reportSource report) report'.rowCount := by
      obtain ⟨reachedEof, returned⟩ := follows'.rowCount
      exact ⟨reachedEof, run ▸ returned⟩
    exact counts.unique follows.rowCount

/-- The verdict of a validation depends on the file and the limits alone: behind the
lock a report that is completed or failed by validation has the errors and the row
count of its file, whatever was cut short before, and any other run of any other
service with the same limits comes to the same verdict on the same bytes.  The errors
of repeated pairs are taken to get their ids by line (`insertDuplicateErrors`). -/
theorem verdict_of_file (deployment : Deployment) (world : ServiceWorld)
    (run : LockedRun deployment world) :
    (∀ report ∈ world.shared.db.reports.rows, Judged report →
      FollowsFile deployment world.shared report) ∧
    ∀ (deployment' : Deployment) (world' : ServiceWorld), LockedRun deployment' world' →
      deployment'.limits = deployment.limits →
        ∀ report ∈ world.shared.db.reports.rows, ∀ report' ∈ world'.shared.db.reports.rows,
          Judged report → Judged report' →
            deployment'.file (reportSource report') = deployment.file (reportSource report) →
              Agrees world.shared world'.shared report report' := by
  have follows : ∀ (deployment : Deployment) (world : ServiceWorld), LockedRun deployment world →
      ∀ report ∈ world.shared.db.reports.rows, Judged report →
        FollowsFile deployment world.shared report := by
    intro deployment world run report member judged
    have found : world.shared.db.reports.find report.id = some report :=
      (Table.find_eq_some _).mpr ⟨member, rfl⟩
    exact (run.verdict report found).follows run.sound found judged
  refine ⟨follows deployment world run, ?_⟩
  intro deployment' world' run' limits report member report' member' judged judged' file
  exact (follows deployment world run report member judged).agrees
    (follows deployment' world' run' report' member' judged') judged judged' limits file

/-- A file with a pair that is listed twice and a quantity that is no number. -/
def wrongDeployment (batchSize : Nat) (positive : 0 < batchSize) : Deployment where
  limits := ⟨100, 200, 10, 40⟩
  batchSize := batchSize
  batchSize_pos := positive
  original _ _ := Utf8Escape.encode <| PyText.ofString
    "warehouse_code,warehouse_name,sku,product_name,quantity\nW,w,S,s,1\nW,w,S,s,2\nW,w,T,t,x\n"

def wrongDelivery (batchSize : Nat) (positive : 0 < batchSize) :
    Delivery (wrongDeployment batchSize positive) where
  chunking source := ⟨[(wrongDeployment batchSize positive).file source], List.append_nil _⟩
  sizes := sampleDelivery.sizes

/-- A cycle of so many requests. -/
def wrongCycle (batchSize : Nat) (positive : 0 < batchSize) (requests : Nat) :
    List (ServiceAction (wrongDeployment batchSize positive)) :=
  .acquire 0 (wrongDelivery batchSize positive) :: List.replicate requests (.run 0 .none) ++
    [.leave 0]

def wrongRegistration (batchSize : Nat) (positive : 0 < batchSize) :
    ServiceAction (wrongDeployment batchSize positive) :=
  .environment (.register ⟨1, "stock.csv", "originals", "wrong", 80, none, 0⟩)

/-- Batches of two, in one cycle. -/
def straightActions : List (ServiceAction (wrongDeployment 2 Nat.two_pos)) :=
  wrongRegistration 2 Nat.two_pos :: wrongCycle 2 Nat.two_pos 21

/-- Batches of one, and a worker that stops with both its tables half written. -/
def brokenActions : List (ServiceAction (wrongDeployment 1 Nat.one_pos)) :=
  wrongRegistration 1 Nat.one_pos :: wrongCycle 1 Nat.one_pos 15 ++ wrongCycle 1 Nat.one_pos 23

theorem straightActions_run : ((service (wrongDeployment 2 Nat.two_pos)).runs ServiceWorld.empty
    straightActions).isSome = true := by
  decide +kernel

theorem brokenActions_run : ((service (wrongDeployment 1 Nat.one_pos)).runs ServiceWorld.empty
    brokenActions).isSome = true := by
  decide +kernel

def straightWorld : ServiceWorld :=
  ((service (wrongDeployment 2 Nat.two_pos)).runs ServiceWorld.empty straightActions).get
    straightActions_run

def brokenWorld : ServiceWorld :=
  ((service (wrongDeployment 1 Nat.one_pos)).runs ServiceWorld.empty brokenActions).get
    brokenActions_run

theorem straightWorld_locked : LockedRun (wrongDeployment 2 Nat.two_pos) straightWorld := by
  refine solo_locked ?_ (Option.some_get straightActions_run).symm
  simp [straightActions, wrongRegistration, wrongCycle, Action.Solo]

theorem brokenWorld_locked : LockedRun (wrongDeployment 1 Nat.one_pos) brokenWorld := by
  refine solo_locked ?_ (Option.some_get brokenActions_run).symm
  simp [brokenActions, wrongRegistration, wrongCycle, Action.Solo]

theorem verdict_of_file_straightWorld :
    ∃ report ∈ straightWorld.shared.db.reports.rows,
      ∃ report' ∈ brokenWorld.shared.db.reports.rows,
        report.errorCount = 2 ∧ Agrees straightWorld.shared brokenWorld.shared report report' := by
  obtain ⟨report, member, judged, count⟩ : ∃ report ∈ straightWorld.shared.db.reports.rows,
      (report.status = .failed ∧ report.failureKind = some .validation) ∧
        report.errorCount = 2 := by
    decide +kernel
  obtain ⟨report', member', judged'⟩ : ∃ report ∈ brokenWorld.shared.db.reports.rows,
      report.status = .failed ∧ report.failureKind = some .validation := by
    decide +kernel
  exact ⟨report, member, report', member', count,
    (verdict_of_file (wrongDeployment 2 Nat.two_pos) straightWorld straightWorld_locked).2
      (wrongDeployment 1 Nat.one_pos) brokenWorld brokenWorld_locked rfl report member report' member'
      (Or.inr judged) (Or.inr judged') rfl⟩

end StockImport.Worker
