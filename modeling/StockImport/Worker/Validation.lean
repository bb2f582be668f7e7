import StockImport.Worker.Sound

/-!
# Validation under the lock

The weakest precondition of `ReportValidator.validate` for a worker alone under
the lock.  `Stored` is what the tables hold of its report and `Written` what its
log has sent there; the writer's two buffers are what is missing in between
(`Buffered`).  At the end the stored errors decide.
-/

set_option autoImplicit false

namespace StockImport.Worker

open Csv Db Tables Transactional

/-! ## Stored and written -/

/-- The tables hold these rows and issues of a report under validation. -/
structure Stored (source : ReportSource) (s : Ledger) (rows : List ValidatedRow)
    (issues : List ValidationIssue) : Prop where
  claimed : Claimed source s
  staged : s.db.stagedRows source.id = rows
  errors : (s.db.errorsOf source.id).map ReportError.toValidationIssue = issues

def stagingBatches (id : Nat) (log : List (Commit workerInterface)) : List (List ValidatedRow) :=
  log.filterMap fun commit =>
    match commit.transaction with
    | .writeStagingBatch reportId batch => if reportId = id then some batch else none
    | _ => none

def errorBatches (id : Nat) (log : List (Commit workerInterface)) :
    List (List ValidationIssue) :=
  log.filterMap fun commit =>
    match commit.transaction with
    | .writeErrorBatch reportId batch => if reportId = id then some batch else none
    | _ => none

/-- The batches of a log: none empty, none too large, together in call order. -/
structure Written (deployment : Deployment) (id : Nat) (log : List (Commit workerInterface))
    (rows : List ValidatedRow) (issues : List ValidationIssue) : Prop where
  rows : (stagingBatches id log).flatten = rows
  rowSizes : ∀ batch ∈ stagingBatches id log,
    batch ≠ [] ∧ batch.length ≤ deployment.batchSize
  issues : (errorBatches id log).flatten = issues
  issueSizes : ∀ batch ∈ errorBatches id log,
    batch ≠ [] ∧ batch.length ≤ deployment.batchSize

/-- The end of an attempt by an exception, the report still claimed. -/
def Aborted (deployment : Deployment) (faults : Faults) (source : ReportSource)
    (e : PyException) (s : Ledger) : Prop :=
  Claimed source s ∧
    ((faults.loses ∧ e = .lockConnectionLost) ∨ Blames deployment faults source e)

theorem Keeps.data {deployment : Deployment} {s s' : Ledger} (keeps : Keeps deployment s s') {id : Nat} {report : Report}
    (found : s.db.reports.find id = some report) : s'.db.dataOf id = s.db.dataOf id :=
  keeps.reports id (by rw [found]; simp)

theorem Keeps.found {deployment : Deployment} {s s' : Ledger} (keeps : Keeps deployment s s') {id : Nat} {report : Report}
    (found : s.db.reports.find id = some report) : s'.db.reports.find id = some report :=
  (congrArg ReportData.report (keeps.data found)).trans found

theorem Keeps.staged {deployment : Deployment} {s s' : Ledger} (keeps : Keeps deployment s s') {id : Nat} {report : Report}
    (found : s.db.reports.find id = some report) : s'.db.stagedRows id = s.db.stagedRows id :=
  congrArg ReportData.staged (keeps.data found)

theorem Keeps.errors {deployment : Deployment} {s s' : Ledger} (keeps : Keeps deployment s s') {id : Nat} {report : Report}
    (found : s.db.reports.find id = some report) : s'.db.errorsOf id = s.db.errorsOf id :=
  congrArg ReportData.errors (keeps.data found)

theorem Claimed.keep {deployment : Deployment} {source : ReportSource} {s s' : Ledger} (keeps : Keeps deployment s s')
    (claimed : Claimed source s) : Claimed source s' := by
  obtain ⟨report, found, rest⟩ := claimed
  exact ⟨report, keeps.found found, rest⟩

theorem Stored.keep {deployment : Deployment} {source : ReportSource} {s s' : Ledger} {rows : List ValidatedRow}
    {issues : List ValidationIssue} (keeps : Keeps deployment s s') (stored : Stored source s rows issues) :
    Stored source s' rows issues := by
  obtain ⟨report, found, _⟩ := stored.claimed
  exact ⟨stored.claimed.keep keeps, (keeps.staged found).trans stored.staged,
    keeps.errors found ▸ stored.errors⟩

theorem Aborted.keep {deployment : Deployment} {faults : Faults} {source : ReportSource}
    {e : PyException} {s s' : Ledger} (keeps : Keeps deployment s s')
    (aborted : Aborted deployment faults source e s) : Aborted deployment faults source e s' :=
  ⟨aborted.1.keep keeps, aborted.2⟩

theorem Claimed.change {source : ReportSource} {s : Ledger} {db : Database}
    {staged : List ValidatedRow} {errors : List ReportError} {inventory : Inventory}
    (claimed : Claimed source s)
    (changes : Changes s.db db source.id ⟨s.db.reports.find source.id, staged, errors⟩ inventory) :
    Claimed source { s with db := db } := by
  obtain ⟨report, found, rest⟩ := claimed
  exact ⟨report, (congrArg ReportData.report changes.own).trans found, rest⟩

theorem Claimed.hasReport {source : ReportSource} {s : Ledger} (claimed : Claimed source s) :
    s.db.hasReport source.id = true := by
  obtain ⟨report, found, _⟩ := claimed
  simp [Database.hasReport, found]

/-- Errors added to what is stored. -/
theorem Stored.addErrors {source : ReportSource} {s : Ledger} {db : Database}
    {rows : List ValidatedRow} {issues more : List ValidationIssue} {added : List ReportError}
    {inventory : Inventory} (stored : Stored source s rows issues)
    (same : added.map ReportError.toValidationIssue = more)
    (changes : Changes s.db db source.id
      { s.db.dataOf source.id with errors := s.db.errorsOf source.id ++ added } inventory) :
    Stored source { s with db := db } rows (issues ++ more) where
  claimed := stored.claimed.change changes
  staged := by
    rw [← stored.staged]
    exact congrArg ReportData.staged changes.own
  errors := by
    have errors := congrArg (fun data => data.errors.map ReportError.toValidationIssue) changes.own
    simp only [List.map_append, stored.errors, same] at errors
    exact errors

section Locked

variable {deployment : Deployment} {faults : Faults} {source : ReportSource}

theorem stored_stable (rows : List ValidatedRow) (issues : List ValidationIssue) :
    Stable (lockedSpec deployment faults) fun s => Stored source s rows issues :=
  fun _ _ keeps stored => stored.keep keeps

/-! ## Writing a batch -/

/-- The log after a staging batch. -/
theorem Written.addRows {log : List (Commit workerInterface)} {rows batch : List ValidatedRow}
    {issues : List ValidationIssue} {id : Nat} (written : Written deployment id log rows issues)
    (some : batch ≠ []) (small : batch.length ≤ deployment.batchSize) :
    Written deployment id (log ++ [⟨.writeStagingBatch id batch, ()⟩]) (rows ++ batch) issues := by
  have staging : stagingBatches id (log ++ [⟨.writeStagingBatch id batch, ()⟩]) =
      stagingBatches id log ++ [batch] := by simp [stagingBatches]
  have errors : errorBatches id (log ++ [⟨.writeStagingBatch id batch, ()⟩]) =
      errorBatches id log := by simp [errorBatches]
  refine ⟨?_, ?_, errors ▸ written.issues, errors ▸ written.issueSizes⟩
  · rw [staging, List.flatten_append, written.rows]
    simp
  · rw [staging]
    intro other member
    rcases List.mem_append.mp member with old | new
    · exact written.rowSizes other old
    · rw [List.mem_singleton.mp new]
      exact ⟨some, small⟩

theorem Written.addIssues {log : List (Commit workerInterface)} {rows : List ValidatedRow}
    {issues batch : List ValidationIssue} {id : Nat}
    (written : Written deployment id log rows issues)
    (some : batch ≠ []) (small : batch.length ≤ deployment.batchSize) :
    Written deployment id (log ++ [⟨.writeErrorBatch id batch, ()⟩]) rows (issues ++ batch) := by
  have staging : stagingBatches id (log ++ [⟨.writeErrorBatch id batch, ()⟩]) =
      stagingBatches id log := by simp [stagingBatches]
  have errors : errorBatches id (log ++ [⟨.writeErrorBatch id batch, ()⟩]) =
      errorBatches id log ++ [batch] := by simp [errorBatches]
  refine ⟨staging ▸ written.rows, staging ▸ written.rowSizes, ?_, ?_⟩
  · rw [errors, List.flatten_append, written.issues]
    simp
  · rw [errors]
    intro other member
    rcases List.mem_append.mp member with old | new
    · exact written.issueSizes other old
    · rw [List.mem_singleton.mp new]
      exact ⟨some, small⟩

/-- Other transactions leave no batch. -/
theorem Written.addOther {log : List (Commit workerInterface)} {rows : List ValidatedRow}
    {issues : List ValidationIssue} {id : Nat} (written : Written deployment id log rows issues)
    (commit : Commit workerInterface)
    (noRows : ∀ reportId batch, commit.transaction ≠ .writeStagingBatch reportId batch)
    (noIssues : ∀ reportId batch, commit.transaction ≠ .writeErrorBatch reportId batch) :
    Written deployment id (log ++ [commit]) rows issues := by
  obtain ⟨t, reply⟩ := commit
  have staging : stagingBatches id (log ++ [⟨t, reply⟩]) = stagingBatches id log := by
    cases t <;> first | exact absurd rfl (noRows _ _) | simp [stagingBatches]
  have errors : errorBatches id (log ++ [⟨t, reply⟩]) = errorBatches id log := by
    cases t <;> first | exact absurd rfl (noIssues _ _) | simp [errorBatches]
  exact ⟨staging ▸ written.rows, staging ▸ written.rowSizes, errors ▸ written.issues,
    errors ▸ written.issueSizes⟩

/-- A transaction behind its liveness check, on a report under validation. -/
theorem wp_checked {α : Type} {post : Post workerInterface Ledger α}
    (stable : StablePost (lockedSpec deployment faults) post) {t : Transaction}
    {f : t.Reply → WorkerProgram α} {log : List (Commit workerInterface)} {s : Ledger}
    {rows : List ValidatedRow} {issues : List ValidationIssue}
    (about : t.reportId = some source.id) (stored : Stored source s rows issues)
    (pre : ∀ s, Stored source s rows issues → Pre deployment faults s t)
    (commits : ∀ s reply s', Stored source s rows issues → t.exec s = .ok (reply, s') →
      wp (lockedSpec deployment faults) (f reply) post (log ++ [⟨t, reply⟩]) s')
    (refuses : ∀ s e, Stored source s rows issues → t.exec s = .error e →
      Blames deployment faults source e)
    (aborted : ∀ e log s, Aborted deployment faults source e s → post (.error e) log s) :
    wp (lockedSpec deployment faults) (assertLockAlive >>= fun _ => inTransaction t >>= f) post
      log s := by
  refine wp_then_assertLock _ _ _ stable ?_ fun loses =>
    aborted _ _ _ ⟨stored.claimed, Or.inl ⟨loses, rfl⟩⟩
  refine wp_then_commit _ _ _ stable (stored_stable rows issues) stored pre ?_ ?_ ?_
  · intro s reply s' stored executed
    exact ⟨commits s reply s' stored executed, fun e impossible => impossible.elim⟩
  · intro s e stored refused
    exact aborted _ _ _ ⟨stored.claimed, Or.inr (refuses s e stored refused)⟩
  · intro s e stored failed
    exact aborted _ _ _ ⟨stored.claimed, Or.inr (.failed t about failed)⟩

theorem wp_flushStaging {post : Post workerInterface Ledger BatchWriter}
    (stable : StablePost (lockedSpec deployment faults) post) {writer : BatchWriter}
    {log : List (Commit workerInterface)} {s : Ledger} {rows : List ValidatedRow}
    {issues : List ValidationIssue} (stored : Stored source s rows issues)
    (written : Written deployment source.id log rows issues)
    (inFile : ∀ row ∈ writer.stagingBatch, row ∈ deployment.fileRows source)
    (lines : ((rows ++ writer.stagingBatch).map ValidatedRow.lineNumber).Nodup)
    (small : writer.stagingBatch.length ≤ deployment.batchSize)
    (done : ∀ log s, Stored source s (rows ++ writer.stagingBatch) issues →
      Written deployment source.id log (rows ++ writer.stagingBatch) issues →
        post (.ok { writer with stagingBatch := [] }) log s)
    (aborted : ∀ e log s, Aborted deployment faults source e s → post (.error e) log s) :
    wp (lockedSpec deployment faults) (flushStaging source.id writer) post log s := by
  unfold flushStaging
  by_cases empty : writer.stagingBatch = []
  · rw [if_pos empty]
    refine wp_pure _ stable ?_
    have same := done log s
    rw [empty, List.append_nil] at same
    have unchanged : ({ writer with stagingBatch := [] } : BatchWriter) = writer := by
      rw [← empty]
    rw [unchanged] at same
    exact same stored written
  · rw [if_neg empty]
    refine wp_checked stable rfl stored (fun s stored => ⟨source, rfl, stored.claimed⟩) ?_ ?_ aborted
    · intro s reply s' stored executed
      obtain ⟨db, batchWritten, rfl⟩ := store_ok executed
      have changes := writeStagingBatch_changes batchWritten
      refine wp_pure _ stable (done _ _ ⟨stored.claimed.change changes, ?_, ?_⟩
        (written.addRows empty small))
      · rw [← stored.staged]
        exact congrArg ReportData.staged changes.own
      · rw [← stored.errors]
        exact congrArg (fun data => data.errors.map ReportError.toValidationIssue) changes.own
    · intro s e stored refused
      have refused := store_error refused
      have unstorable : ¬ Storable deployment source := by
        intro storable
        obtain ⟨db, accepted⟩ := writeStagingBatch_ok
          (List.all_eq_true.mpr fun row member => storable.1 row (inFile row member))
          stored.claimed.hasReport (stored.staged ▸ lines)
        rw [refused] at accepted
        cases accepted
      exact .refused unstorable (writeStagingBatch_error refused)

theorem wp_flushErrors {post : Post workerInterface Ledger BatchWriter}
    (stable : StablePost (lockedSpec deployment faults) post) {writer : BatchWriter}
    {log : List (Commit workerInterface)} {s : Ledger} {rows : List ValidatedRow}
    {issues : List ValidationIssue} (stored : Stored source s rows issues)
    (written : Written deployment source.id log rows issues)
    (inFile : ∀ issue ∈ writer.errorBatch, issue ∈ deployment.fileIssues source)
    (small : writer.errorBatch.length ≤ deployment.batchSize)
    (done : ∀ log s, Stored source s rows (issues ++ writer.errorBatch) →
      Written deployment source.id log rows (issues ++ writer.errorBatch) →
        post (.ok { writer with errorBatch := [] }) log s)
    (aborted : ∀ e log s, Aborted deployment faults source e s → post (.error e) log s) :
    wp (lockedSpec deployment faults) (flushErrors source.id writer) post log s := by
  unfold flushErrors
  by_cases empty : writer.errorBatch = []
  · rw [if_pos empty]
    refine wp_pure _ stable ?_
    have same := done log s
    rw [empty, List.append_nil] at same
    have unchanged : ({ writer with errorBatch := [] } : BatchWriter) = writer := by
      rw [← empty]
    rw [unchanged] at same
    exact same stored written
  · rw [if_neg empty]
    refine wp_checked stable rfl stored (fun s stored => ⟨source, rfl, stored.claimed⟩) ?_ ?_ aborted
    · intro s reply s' stored executed
      obtain ⟨db, batchWritten, rfl⟩ := store_ok executed
      obtain ⟨added, same, changes⟩ := writeErrorBatch_changes batchWritten
      exact wp_pure _ stable (done _ _ (stored.addErrors same changes)
        (written.addIssues empty small))
    · intro s e stored refused
      have refused := store_error refused
      have unstorable : ¬ Storable deployment source := by
        intro storable
        obtain ⟨db, accepted⟩ := writeErrorBatch_ok
          (List.all_eq_true.mpr fun issue member => storable.2 issue (inFile issue member))
          stored.claimed.hasReport
        rw [refused] at accepted
        cases accepted
      exact .refused unstorable (writeErrorBatch_error refused)

/-! ## The events of the stream -/

/-- The writer between two callbacks: what is written, what it holds and what is
still to come make up the file, and neither buffer is full. -/
structure Buffered (deployment : Deployment) (source : ReportSource) (writer : BatchWriter)
    (rows restRows : List ValidatedRow) (issues restIssues : List ValidationIssue) : Prop where
  rows : rows ++ writer.stagingBatch ++ restRows = deployment.fileRows source
  issues : issues ++ writer.errorBatch ++ restIssues = deployment.fileIssues source
  stagingRoom : writer.stagingBatch.length < deployment.batchSize
  errorRoom : writer.errorBatch.length < deployment.batchSize

/-- The writer with these rows and issues still to come, or an aborted attempt. -/
def Between (deployment : Deployment) (faults : Faults) (source : ReportSource)
    (restRows : List ValidatedRow) (restIssues : List ValidationIssue) :
    Post workerInterface Ledger BatchWriter :=
  fun result log s =>
    match result with
    | .ok writer => ∃ rows issues, Stored source s rows issues ∧
        Written deployment source.id log rows issues ∧
        Buffered deployment source writer rows restRows issues restIssues
    | .error e => Aborted deployment faults source e s

theorem between_stable (deployment : Deployment) (faults : Faults) (source : ReportSource)
    (restRows : List ValidatedRow) (restIssues : List ValidationIssue) :
    StablePost (lockedSpec deployment faults)
      (Between deployment faults source restRows restIssues) := by
  intro result log s s' keeps holds
  cases result with
  | ok writer =>
      obtain ⟨rows, issues, stored, written, buffered⟩ := holds
      exact ⟨rows, issues, stored.keep keeps, written, buffered⟩
  | error e => exact Aborted.keep keeps holds

theorem fileRows_lines (deployment : Deployment) (source : ReportSource) :
    ((deployment.fileRows source).map ValidatedRow.lineNumber).Nodup := by
  obtain ⟨perRecord, final, accounts⟩ :=
    validateBytes_accounts deployment.limits (deployment.file source)
  exact accounts.lines_nodup

theorem wp_addValidRow {writer : BatchWriter} {row : ValidatedRow} {restRows : List ValidatedRow}
    {restIssues : List ValidationIssue} {log : List (Commit workerInterface)} {s : Ledger}
    (before : Between deployment faults source (row :: restRows) restIssues (.ok writer) log s) :
    wp (lockedSpec deployment faults) (addValidRow deployment.batchSize source.id writer row)
      (Between deployment faults source restRows restIssues) log s := by
  obtain ⟨rows, issues, stored, written, buffered⟩ := before
  have whole : rows ++ (writer.stagingBatch ++ [row]) ++ restRows =
      deployment.fileRows source := by
    rw [← buffered.rows]
    simp
  have stable := between_stable deployment faults source restRows restIssues
  unfold addValidRow
  dsimp only
  by_cases full : deployment.batchSize ≤ (writer.stagingBatch ++ [row]).length
  · rw [if_pos full]
    have room := buffered.stagingRoom
    refine wp_flushStaging stable stored written ?_ ?_ ?_ ?_ ?_
    · intro other member
      rw [← whole]
      exact List.mem_append_left _ (List.mem_append_right _ member)
    · have lines := fileRows_lines deployment source
      rw [← whole] at lines
      exact lines.sublist ((List.sublist_append_left _ _).map _)
    · simp only [List.length_append, List.length_singleton]; omega
    · intro log s stored written
      refine ⟨_, _, stored, written, ⟨?_, buffered.issues, deployment.batchSize_pos,
        buffered.errorRoom⟩⟩
      simpa using whole
    · intro e log s aborted
      exact aborted
  · rw [if_neg full]
    refine wp_pure _ stable ⟨rows, issues, stored, written, whole, buffered.issues, ?_,
      buffered.errorRoom⟩
    exact Nat.lt_of_not_le full

theorem wp_addIssue {writer : BatchWriter} {issue : ValidationIssue}
    {restRows : List ValidatedRow} {restIssues : List ValidationIssue}
    {log : List (Commit workerInterface)} {s : Ledger}
    (before : Between deployment faults source restRows (issue :: restIssues) (.ok writer) log s) :
    wp (lockedSpec deployment faults) (addIssue deployment.batchSize source.id writer issue)
      (Between deployment faults source restRows restIssues) log s := by
  obtain ⟨rows, issues, stored, written, buffered⟩ := before
  have whole : issues ++ (writer.errorBatch ++ [issue]) ++ restIssues =
      deployment.fileIssues source := by
    rw [← buffered.issues]
    simp
  have stable := between_stable deployment faults source restRows restIssues
  unfold addIssue
  dsimp only
  by_cases full : deployment.batchSize ≤ (writer.errorBatch ++ [issue]).length
  · rw [if_pos full]
    have room := buffered.errorRoom
    refine wp_flushErrors stable stored written ?_ ?_ ?_ ?_
    · intro other member
      rw [← whole]
      exact List.mem_append_left _ (List.mem_append_right _ member)
    · simp only [List.length_append, List.length_singleton]; omega
    · intro log s stored written
      refine ⟨_, _, stored, written, ⟨buffered.rows, ?_, buffered.stagingRoom,
        deployment.batchSize_pos⟩⟩
      simpa using whole
    · intro e log s aborted
      exact aborted
  · rw [if_neg full]
    refine wp_pure _ stable ⟨rows, issues, stored, written, buffered.rows, whole,
      buffered.stagingRoom, ?_⟩
    exact Nat.lt_of_not_le full

/-- A `Between` carried through a bind. -/
theorem wp_bind_between {β : Type} {p : WorkerProgram BatchWriter}
    {f : BatchWriter → WorkerProgram β} {post : Post workerInterface Ledger β}
    (stable : StablePost (lockedSpec deployment faults) post) {restRows : List ValidatedRow}
    {restIssues : List ValidationIssue} {log : List (Commit workerInterface)} {s : Ledger}
    (first : wp (lockedSpec deployment faults) p
      (Between deployment faults source restRows restIssues) log s)
    (next : ∀ writer log s,
      Between deployment faults source restRows restIssues (.ok writer) log s →
        wp (lockedSpec deployment faults) (f writer) post log s)
    (aborted : ∀ e log s, Aborted deployment faults source e s → post (.error e) log s) :
    wp (lockedSpec deployment faults) (p >>= f) post log s := by
  refine wp_bind _ _ _ stable (wp_mono _ _ ?_ _ _ first)
  intro result log s holds
  cases result with
  | ok writer => exact next writer log s holds
  | error e => exact aborted e log s holds

theorem wp_addIssues {restRows : List ValidatedRow} {restIssues : List ValidationIssue} :
    ∀ (found : List ValidationIssue) (writer : BatchWriter)
      (log : List (Commit workerInterface)) (s : Ledger),
      Between deployment faults source restRows (found ++ restIssues) (.ok writer) log s →
        wp (lockedSpec deployment faults)
          (addIssues deployment.batchSize source.id writer found)
          (Between deployment faults source restRows restIssues) log s := by
  intro found
  have stable := between_stable deployment faults source restRows restIssues
  induction found with
  | nil =>
      intro writer log s before
      exact wp_pure _ stable before
  | cons issue found ih =>
      intro writer log s before
      simp only [addIssues]
      exact wp_bind_between stable (wp_addIssue before) ih (fun e log s aborted => aborted)

theorem wp_runEvents : ∀ (events : List StreamEvent) (writer : BatchWriter)
    (log : List (Commit workerInterface)) (s : Ledger),
    Between deployment faults source (events.flatMap StreamEvent.rows)
        (events.flatMap StreamEvent.reported) (.ok writer) log s →
      wp (lockedSpec deployment faults)
        (runEvents deployment.batchSize source.id writer events)
        (Between deployment faults source [] []) log s := by
  intro events
  have stable := between_stable deployment faults source [] []
  induction events with
  | nil =>
      intro writer log s before
      exact wp_pure _ stable before
  | cons event events ih =>
      intro writer log s before
      cases event with
      | fetch =>
          have claimed : Claimed source s := by
            obtain ⟨_, _, stored, _⟩ := before
            exact stored.claimed
          simp only [runEvents]
          refine wp_then_assertLock _ _ _ stable ?_ fun loses =>
            ⟨claimed, Or.inl ⟨loses, rfl⟩⟩
          refine wp_then_invoke _ _ _ stable (ih writer log s before) ?_
          intro e raised
          exact ⟨claimed, Or.inr (.raised _ rfl raised)⟩
      | validRow row =>
          simp only [runEvents]
          exact wp_bind_between stable (wp_addValidRow before) ih (fun e log s aborted => aborted)
      | issues found =>
          simp only [runEvents]
          exact wp_bind_between stable (wp_addIssues found writer log s before) ih
            (fun e log s aborted => aborted)

/-- Nothing is buffered after the flush at the end. -/
theorem wp_flushAll {post : Post workerInterface Ledger BatchWriter}
    (stable : StablePost (lockedSpec deployment faults) post) {writer : BatchWriter}
    {log : List (Commit workerInterface)} {s : Ledger}
    (before : Between deployment faults source [] [] (.ok writer) log s)
    (done : ∀ writer log s,
      Stored source s (deployment.fileRows source) (deployment.fileIssues source) →
        Written deployment source.id log (deployment.fileRows source)
          (deployment.fileIssues source) → post (.ok writer) log s)
    (aborted : ∀ e log s, Aborted deployment faults source e s → post (.error e) log s) :
    wp (lockedSpec deployment faults) (flushAll source.id writer) post log s := by
  obtain ⟨rows, issues, stored, written, buffered⟩ := before
  have allRows : rows ++ writer.stagingBatch = deployment.fileRows source := by
    simpa using buffered.rows
  have allIssues : issues ++ writer.errorBatch = deployment.fileIssues source := by
    simpa using buffered.issues
  unfold flushAll
  refine wp_bind _ _ _ stable (wp_flushStaging (stablePost_bind _ _ stable) stored written ?_ ?_
    (Nat.le_of_lt buffered.stagingRoom) ?_ aborted)
  · intro row member
    rw [← allRows]
    exact List.mem_append_right _ member
  · rw [allRows]
    exact fileRows_lines deployment source
  · intro log s stored written
    rw [allRows] at stored written
    refine wp_flushErrors stable stored written ?_ (Nat.le_of_lt buffered.errorRoom) ?_ aborted
    · intro issue member
      rw [← allIssues]
      exact List.mem_append_right _ member
    · intro log s stored written
      rw [allIssues] at stored written
      exact done _ log s stored written

/-! ## The end of `validate` -/

/-- The errors of the rows that repeat a pair. -/
def Deployment.duplicateErrors (deployment : Deployment) (source : ReportSource) :
    List ValidationIssue :=
  (duplicateRows (deployment.fileRows source)).map
    (duplicateIssue deployment.duplicateRawValueChars)

/-- The row count of the summary that `validate_csv_stream` returns for a file. -/
def Deployment.Counts (deployment : Deployment) (source : ReportSource) (rowCount : Nat) : Prop :=
  ∃ reachedEof, (deployment.fileRun source).result = .ok ⟨rowCount, reachedEof⟩

/-- A report that `validate` has failed; the errors of its pairs stand in the order that
`insertDuplicateErrors` assumes. -/
structure Refused (deployment : Deployment) (source : ReportSource) (s : Ledger) : Prop where
  report : ∃ report, s.db.reports.find source.id = some report ∧
    reportSource report = source ∧ report.status = .failed ∧
    report.failureKind = some .validation ∧
    report.errorCount =
      (deployment.fileIssues source).length + (duplicateRows (deployment.fileRows source)).length ∧
    deployment.Counts source report.rowCount
  staged : s.db.stagedRows source.id = []
  errors : (s.db.errorsOf source.id).map ReportError.toValidationIssue =
    deployment.fileIssues source ++ deployment.duplicateErrors source
  wrong : ¬(deployment.fileIssues source = [] ∧ DistinctPairs (deployment.fileRows source))

/-- What `validate` leaves behind. -/
def Validated (deployment : Deployment) (faults : Faults) (source : ReportSource) :
    Post workerInterface Ledger WorkerCycleOutcome :=
  fun result log s =>
    match result with
    | .ok outcome =>
        Written deployment source.id log (deployment.fileRows source)
            (deployment.fileIssues source) ∧
          ((outcome = .validated ∧ Ready deployment source s) ∨
            (outcome = .validationFailed ∧ Refused deployment source s))
    | .error e => Aborted deployment faults source e s

theorem Ready.keep {s s' : Ledger} (keeps : Keeps deployment s s') (ready : Ready deployment source s) :
    Ready deployment source s' := by
  obtain ⟨report, found, same, status, count, valid, staged, errors⟩ := ready
  exact ⟨report, keeps.found found, same, status, count, valid,
    (keeps.staged found).trans staged, (keeps.errors found).trans errors⟩

theorem Refused.keep {s s' : Ledger} (keeps : Keeps deployment s s') (refused : Refused deployment source s) :
    Refused deployment source s' := by
  obtain ⟨⟨report, found, rest⟩, staged, errors, wrong⟩ := refused
  exact ⟨⟨report, keeps.found found, rest⟩, (keeps.staged found).trans staged,
    keeps.errors found ▸ errors, wrong⟩

theorem validated_stable (deployment : Deployment) (faults : Faults) (source : ReportSource) :
    StablePost (lockedSpec deployment faults) (Validated deployment faults source) := by
  intro result log s s' keeps holds
  cases result with
  | ok outcome =>
      obtain ⟨written, ⟨same, ready⟩ | ⟨same, refused⟩⟩ := holds
      · exact ⟨written, Or.inl ⟨same, ready.keep keeps⟩⟩
      · exact ⟨written, Or.inr ⟨same, refused.keep keeps⟩⟩
  | error e => exact Aborted.keep keeps holds

/-- The stored errors are none exactly for a file without an issue or a repeated pair. -/
theorem allErrors_eq_nil (deployment : Deployment) (source : ReportSource) :
    deployment.fileIssues source ++ deployment.duplicateErrors source = [] ↔
      deployment.fileIssues source = [] ∧ DistinctPairs (deployment.fileRows source) := by
  rw [List.append_eq_nil_iff, Deployment.duplicateErrors, List.map_eq_nil_iff,
    duplicateRows_eq_nil (fileRows_lines deployment source)]

theorem ValidFile.of_result {summary : CsvValidationSummary}
    (returned : (deployment.fileRun source).result = .ok summary)
    (clean : deployment.fileIssues source = [])
    (distinct : DistinctPairs (deployment.fileRows source)) :
    summary.reachedEof = true ∧ summary.rowCount ≠ 0 ∧
      ValidFile deployment source summary.rowCount := by
  obtain ⟨perRecord, final, accounts⟩ :=
    validateBytes_accounts deployment.limits (deployment.file source)
  obtain ⟨reached, positive, _, _⟩ := accounts.complete returned clean
  refine ⟨reached, Nat.ne_of_gt positive, ?_, clean, distinct⟩
  rw [returned, ← reached]

/-- The decision, with every error stored. -/
theorem wp_concludeValidation {summary : CsvValidationSummary} {count : Nat}
    {log : List (Commit workerInterface)} {s : Ledger}
    (returned : (deployment.fileRun source).result = .ok summary)
    (stored : Stored source s (deployment.fileRows source)
      (deployment.fileIssues source ++ deployment.duplicateErrors source))
    (counted : count =
      (deployment.fileIssues source ++ deployment.duplicateErrors source).length)
    (written : Written deployment source.id log (deployment.fileRows source)
      (deployment.fileIssues source)) :
    wp (lockedSpec deployment faults) (concludeValidation source.id summary count)
      (Validated deployment faults source) log s := by
  have stable := validated_stable deployment faults source
  unfold concludeValidation
  by_cases none : count = 0
  · rw [counted, List.length_eq_zero_iff] at none
    obtain ⟨clean, distinct⟩ := (allErrors_eq_nil deployment source).mp none
    obtain ⟨reached, some, valid⟩ := ValidFile.of_result returned clean distinct
    rw [if_neg (by simp [counted, none]), if_neg (by simp [reached, some])]
    refine wp_checked stable rfl stored ?_ ?_ (fun s e _ refused => by cases refused)
      (fun e log s aborted => aborted)
    · intro s stored
      refine ⟨source, rfl, stored.claimed, valid, stored.staged, ?_⟩
      have errors := stored.errors
      rwa [none, List.map_eq_nil_iff] at errors
    · intro s reply s' stored executed
      cases executed
      refine wp_pure _ stable ⟨written.addOther _ (by simp) (by simp), Or.inl ⟨rfl, ?_⟩⟩
      obtain ⟨report, found, same, status, _⟩ := stored.claimed
      have changes := markValidated_changes source.id summary.rowCount s.db
      rw [whileProcessing_found found status] at changes
      have errors := stored.errors
      rw [none, List.map_eq_nil_iff] at errors
      exact ⟨report.setValidated summary.rowCount, congrArg ReportData.report changes.own, same,
        status, rfl, valid, (congrArg ReportData.staged changes.own).trans stored.staged,
        (congrArg ReportData.errors changes.own).trans errors⟩
  · rw [if_pos none]
    have wrong : ¬(deployment.fileIssues source = [] ∧
        DistinctPairs (deployment.fileRows source)) := by
      intro fine
      rw [← allErrors_eq_nil] at fine
      exact none (by rw [counted, fine, List.length_nil])
    refine wp_checked stable rfl stored ?_ ?_ (fun s e _ refused => by cases refused)
      (fun e log s aborted => aborted)
    · intro s stored
      refine ⟨source, rfl, stored.claimed, ?_, Nat.pos_of_ne_zero none, ?_⟩
      · rw [counted, ← stored.errors, List.length_map]
      · intro rowCount valid
        exact wrong ⟨valid.clean, valid.distinct⟩
    · intro s reply s' stored executed
      cases executed
      refine wp_pure _ stable ⟨written.addOther _ (by simp) (by simp), Or.inr ⟨rfl, ?_⟩⟩
      obtain ⟨report, found, same, status, _⟩ := stored.claimed
      have changes := finalizeValidationFailure_changes source.id summary.rowCount count s.db
      rw [whileProcessing_found found status] at changes
      refine ⟨⟨_, congrArg ReportData.report changes.own, same, rfl, rfl, ?_, ?_⟩,
        congrArg ReportData.staged changes.own, ?_, wrong⟩
      · simp [Report.failValidation, counted, Deployment.duplicateErrors]
      · exact ⟨summary.reachedEof, returned⟩
      · rw [← stored.errors]
        exact congrArg (fun data => data.errors.map ReportError.toValidationIssue) changes.own

theorem wp_finishValidation {summary : CsvValidationSummary}
    {log : List (Commit workerInterface)} {s : Ledger}
    (returned : (deployment.fileRun source).result = .ok summary)
    (stored : Stored source s (deployment.fileRows source) (deployment.fileIssues source))
    (written : Written deployment source.id log (deployment.fileRows source)
      (deployment.fileIssues source)) :
    wp (lockedSpec deployment faults) (finishValidation deployment source.id summary)
      (Validated deployment faults source) log s := by
  have stable := validated_stable deployment faults source
  unfold finishValidation
  refine wp_checked stable rfl stored (fun s stored => ⟨source, rfl, stored.claimed⟩) ?_ ?_
    (fun e log s aborted => aborted)
  · intro s reply s' stored executed
    obtain ⟨db, inserted, rfl⟩ := store_ok executed
    obtain ⟨added, issues, changes⟩ := insertErrors_changes inserted
    rw [stored.staged] at issues
    have allStored : Stored source { s with db := db } (deployment.fileRows source)
        (deployment.fileIssues source ++ deployment.duplicateErrors source) :=
      stored.addErrors issues changes
    refine wp_checked stable rfl allStored (fun _ _ => trivial) ?_
      (fun s e _ refused => by cases refused) (fun e log s aborted => aborted)
    intro s count s' stored counted
    cases counted
    refine wp_concludeValidation returned stored ?_ ?_
    · rw [← stored.errors, List.length_map]
      rfl
    · exact (written.addOther _ (by simp) (by simp)).addOther _ (by simp) (by simp)
  · intro s e stored refused
    have refused := store_error refused
    obtain ⟨db, accepted⟩ := insertErrors_ok ((duplicateRows (s.db.stagedRows source.id)).map
      (duplicateIssue deployment.duplicateRawValueChars)) stored.claimed.hasReport
    unfold Db.insertDuplicateErrors at refused
    rw [accepted] at refused
    cases refused

/-! ## `validate` -/

/-- A delivery brings the rows, the issues and the result of the file. -/
theorem Delivery.run_file (delivery : Delivery deployment) (source : ReportSource) :
    (delivery.run source).rows = deployment.fileRows source ∧
      (delivery.run source).reported = deployment.fileIssues source ∧
      (delivery.run source).result = (deployment.fileRun source).result := by
  have agrees := validateCsvStream_agrees deployment.limits delivery.sizes
    (delivery.chunking source).chunks
  rw [(delivery.chunking source).joined] at agrees
  refine ⟨?_, ?_, agrees.2⟩
  · rw [ValidationRun.rows_callbacks, Deployment.fileRows, ValidationRun.rows_callbacks]
    exact congrArg (fun events => events.flatMap StreamEvent.rows) agrees.1
  · rw [ValidationRun.reported_callbacks, Deployment.fileIssues,
      ValidationRun.reported_callbacks]
    exact congrArg (fun events => events.flatMap StreamEvent.reported) agrees.1

theorem wp_consumeRun (delivery : Delivery deployment) {log : List (Commit workerInterface)}
    {s : Ledger} (stored : Stored source s [] [])
    (written : Written deployment source.id log [] []) :
    wp (lockedSpec deployment faults)
      (consumeRun deployment source.id (delivery.run source))
      (Validated deployment faults source) log s := by
  have stable := validated_stable deployment faults source
  obtain ⟨rows, reported, result⟩ := delivery.run_file source
  unfold consumeRun
  have start : Between deployment faults source (delivery.run source).rows
      (delivery.run source).reported (.ok ⟨[], []⟩) log s :=
    ⟨[], [], stored, written, rows, reported, deployment.batchSize_pos, deployment.batchSize_pos⟩
  refine wp_bind_between stable (wp_runEvents _ _ _ _ start) ?_ (fun e log s aborted => aborted)
  · intro writer log s before
    have claimed : Claimed source s := by
      obtain ⟨_, _, stored, _⟩ := before
      exact stored.claimed
    refine wp_then_done _ _ _ stable ?_ ?_
    · intro summary returned
      rw [result] at returned
      refine wp_bind _ _ _ stable (wp_flushAll (stablePost_bind _ _ stable) before ?_ ?_)
      · intro writer log s stored written
        exact wp_finishValidation returned stored written
      · intro e log s aborted
        exact aborted
    · intro e raised
      exact ⟨claimed, Or.inr (.stream (result ▸ raised))⟩

theorem wp_validate (delivery : Delivery deployment) {log : List (Commit workerInterface)}
    {s : Ledger} (stored : Stored source s [] [])
    (written : Written deployment source.id log [] []) :
    wp (lockedSpec deployment faults) (validate deployment delivery source)
      (Validated deployment faults source) log s := by
  have stable := validated_stable deployment faults source
  unfold validate
  refine wp_then_assertLock _ _ _ stable ?_ fun loses =>
    ⟨stored.claimed, Or.inl ⟨loses, rfl⟩⟩
  refine wp_then_invoke _ _ _ stable (wp_consumeRun delivery stored written) ?_
  intro e raised
  exact ⟨stored.claimed, Or.inr (.raised _ rfl raised)⟩

end Locked

end StockImport.Worker
