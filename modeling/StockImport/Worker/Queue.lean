import StockImport.Db.Queue
import StockImport.Library.Attempts
import StockImport.Worker.Interleaving

/-!
# The queue

A cycle works on the report that its claim found, and on no other (`Disciplined`).
A registration may come late in the order of the queue; a report still ends only
after every report that stands before it and was there when it was claimed, and a
report that waits for its apply is left as it is.
-/

set_option autoImplicit false

namespace StockImport.Worker

open Csv Db Tables Transactional

/-! ## One report for each transaction -/

/-- What no transaction undoes on a report. -/
structure Succeeds (report report' : Report) : Prop where
  createdAt : report'.createdAt = report.createdAt
  pending : report'.status = .pending → report.status = .pending
  terminal : report.Terminal → report'.Terminal

theorem Succeeds.refl (report : Report) : Succeeds report report :=
  ⟨rfl, fun status => status, fun ended => ended⟩

/-- Only the data of one report changes, and the report stays. -/
structure Touches (s s' : Ledger) (id : Nat) : Prop where
  others : ∀ other, other ≠ id → s'.db.dataOf other = s.db.dataOf other
  own : ∀ report, s.db.reports.find id = some report →
    ∃ report', s'.db.reports.find id = some report' ∧ Succeeds report report'

theorem Touches.refl (s : Ledger) (id : Nat) : Touches s s id where
  others _ _ := rfl
  own report found := ⟨report, found, .refl report⟩

theorem Touches.of_changes {s : Ledger} {db : Database} {id : Nat} {data : ReportData}
    {inventory : Inventory} {completions : List ReportSource}
    (changes : Changes s.db db id data inventory)
    (own : ∀ report, s.db.reports.find id = some report →
      ∃ report', data.report = some report' ∧ Succeeds report report') :
    Touches s ⟨db, completions⟩ id where
  others := changes.others
  own report found := by
    obtain ⟨report', same, succeeds⟩ := own report found
    exact ⟨report', (congrArg ReportData.report changes.own).trans same, succeeds⟩

theorem Touches.of_update {s : Ledger} {db : Database} {id : Nat} {set : Report → Report}
    {staged : List ValidatedRow} {errors : List ReportError} {inventory : Inventory}
    (changes : Changes s.db db id ⟨(s.db.reports.find id).map set, staged, errors⟩ inventory)
    (succeeds : ∀ report, Succeeds report (set report)) : Touches s { s with db := db } id := by
  refine .of_changes changes fun report found => ⟨set report, ?_, succeeds report⟩
  rw [found]
  rfl

theorem whileProcessing_succeeds {set : Report → Report}
    (createdAt : ∀ report, (set report).createdAt = report.createdAt)
    (started : ∀ report, report.status = .processing → (set report).status ≠ .pending)
    (report : Report) : Succeeds report (whileProcessing set report) := by
  unfold whileProcessing
  split
  · next processing =>
      refine ⟨createdAt report, fun pending => absurd pending (started report processing), ?_⟩
      simp [Report.Terminal, processing]
  · exact .refl report

theorem exec_touches {t : Transaction} {reply : t.Reply} {s s' : Ledger} {id : Nat}
    (about : t.reportId = some id) (executed : t.exec s = .ok (reply, s')) : Touches s s' id := by
  have same : ∀ {db : Database} {staged : List ValidatedRow} {errors : List ReportError},
      Changes s.db db id ⟨s.db.reports.find id, staged, errors⟩ s.db.inventory →
        Touches s { s with db := db } id :=
    fun changes => .of_changes changes fun report found => ⟨report, found, .refl report⟩
  cases t with
  | claim => cases about
  | errorCount _ =>
      cases executed
      exact .refl s id
  | writeStagingBatch _ batch =>
      cases about
      obtain ⟨db, written, rfl⟩ := store_ok executed
      exact same (writeStagingBatch_changes written)
  | writeErrorBatch _ batch =>
      cases about
      obtain ⟨db, written, rfl⟩ := store_ok executed
      obtain ⟨added, _, changes⟩ := writeErrorBatch_changes written
      exact same changes
  | insertDuplicateErrors _ rawValueChars =>
      cases about
      obtain ⟨db, written, rfl⟩ := store_ok executed
      obtain ⟨added, _, changes⟩ := insertErrors_changes written
      exact same changes
  | finalizeValidationFailure _ rowCount count =>
      cases about
      cases executed
      exact .of_update (finalizeValidationFailure_changes id rowCount count s.db)
        (whileProcessing_succeeds (fun _ => rfl) (by simp [Report.failValidation]))
  | markValidated _ rowCount =>
      cases about
      cases executed
      exact .of_update (markValidated_changes id rowCount s.db)
        (whileProcessing_succeeds (fun _ => rfl) (by simp +contextual [Report.setValidated]))
  | markProcessingFailed _ =>
      cases about
      obtain ⟨db, written, rfl⟩ := store_ok executed
      obtain ⟨added, changes⟩ := markFailed_changes written
      exact .of_update changes
        (whileProcessing_succeeds (fun _ => rfl) (by simp [Report.failProcessing]))
  | markApplyFailed _ =>
      cases about
      obtain ⟨db, written, rfl⟩ := store_ok executed
      obtain ⟨added, changes⟩ := markFailed_changes written
      exact .of_update changes
        (whileProcessing_succeeds (fun _ => rfl) (by simp [Report.failApply]))
  | apply _ =>
      cases about
      obtain ⟨db, ran, rfl⟩ := exec_apply executed
      obtain ⟨report, _, counters, found, _, _, _, changes⟩ := applyReport_changes ran
      refine .of_changes changes fun report' found' => ?_
      rw [found] at found'
      cases found'
      exact ⟨_, rfl, rfl, (by simp [Report.complete]), fun _ => Or.inl rfl⟩

theorem exec_claim {reply : Option (ReportSource × Bool)} {s s' : Ledger}
    (executed : Transaction.exec .claim s = .ok (reply, s')) :
    claimOrRecoverNextReport s.db = (reply, s'.db) ∧ s' = { s with db := s'.db } := by
  cases executed
  exact ⟨rfl, rfl⟩

theorem claim_idle {s s' : Ledger} (executed : Transaction.exec .claim s = .ok (none, s')) :
    s' = s := by
  obtain ⟨claimed, same⟩ := exec_claim executed
  rw [same, (claim_none claimed).1]

theorem claim_touches {s s' : Ledger} {source : ReportSource} {ready : Bool}
    (executed : Transaction.exec .claim s = .ok (some (source, ready), s')) :
    Touches s s' source.id := by
  obtain ⟨claimed, same⟩ := exec_claim executed
  obtain ⟨report, rfl, first⟩ := claim_first claimed
  rw [same]
  cases ready with
  | true =>
      rw [first.kept rfl]
      exact .refl s _
  | false =>
      refine .of_changes (first.cleared rfl) fun report' found => ?_
      cases first.found.symm.trans found
      refine ⟨_, rfl, rfl, (by simp [Report.claim]), fun ended => ?_⟩
      rw [← Report.isOpen_eq_false, first.isOpen] at ended
      cases ended

theorem Touches.succeeds {s s' : Ledger} {id other : Nat} {report : Report}
    (touches : Touches s s' id) (found : s.db.reports.find other = some report) :
    ∃ report', s'.db.reports.find other = some report' ∧ Succeeds report report' := by
  by_cases mine : other = id
  · subst mine
    exact touches.own report found
  · exact ⟨report, (congrArg ReportData.report (touches.others other mine)).trans found,
      .refl report⟩

/-- A report stays, and where it stands in the queue. -/
theorem exec_succeeds {t : Transaction} {reply : t.Reply} {s s' : Ledger} {id : Nat}
    {report : Report} (executed : t.exec s = .ok (reply, s'))
    (found : s.db.reports.find id = some report) :
    ∃ report', s'.db.reports.find id = some report' ∧ Succeeds report report' := by
  cases about : t.reportId with
  | some other => exact (exec_touches about executed).succeeds found
  | none =>
      cases t with
      | claim =>
          cases reply with
          | none =>
              rw [claim_idle executed]
              exact (Touches.refl s id).succeeds found
          | some answer => exact (claim_touches executed).succeeds found
      | _ => cases about

/-! ## Reports at work and at their end -/

/-- The work on the report has begun. -/
def Started (reportId : Nat) (s : Ledger) : Prop :=
  ∃ report, s.db.reports.find reportId = some report ∧ report.status ≠ .pending

def HasEnded (reportId : Nat) (s : Ledger) : Prop :=
  ∃ report, s.db.reports.find reportId = some report ∧ report.Terminal

theorem Started.keep {deployment : Deployment} {id : Nat} {s s' : Ledger} (keeps : Keeps deployment s s')
    (started : Started id s) : Started id s' := by
  obtain ⟨report, found, status⟩ := started
  exact ⟨report, keeps.found found, status⟩

theorem Started.exec {id : Nat} {s s' : Ledger} {t : Transaction} {reply : t.Reply}
    (started : Started id s) (executed : t.exec s = .ok (reply, s')) : Started id s' := by
  obtain ⟨report, found, status⟩ := started
  obtain ⟨report', found', succeeds⟩ := exec_succeeds executed found
  exact ⟨report', found', fun pending => status (succeeds.pending pending)⟩

theorem started_of_claimed {source : ReportSource} {s : Ledger} (claimed : Claimed source s) : Started source.id s := by
  obtain ⟨report, found, _, status, _⟩ := claimed
  exact ⟨report, found, by simp [status]⟩

theorem HasEnded.exec {id : Nat} {s s' : Ledger} {t : Transaction} {reply : t.Reply}
    (ended : HasEnded id s) (executed : t.exec s = .ok (reply, s')) : HasEnded id s' := by
  obtain ⟨report, found, terminal⟩ := ended
  obtain ⟨report', found', succeeds⟩ := exec_succeeds executed found
  exact ⟨report', found', succeeds.terminal terminal⟩

/-! ## A cycle keeps to its claim -/

/-- The requests of a cycle after the commits of its log. -/
inductive Disciplined (deployment : Deployment) :
    List (Commit workerInterface) → Transaction → Prop
  | claims : Disciplined deployment [] .claim
  | works (source : ReportSource) (ready : Bool) (rest : List (Commit workerInterface))
      (t : Transaction) (works : WorksOn deployment source ready t) :
      Disciplined deployment (⟨.claim, some (source, ready)⟩ :: rest) t

/-- A worker of which only the order of its requests counts. -/
def disciplineSpec (deployment : Deployment) : Spec workerInterface Ledger where
  exec := Transaction.exec
  rely _ _ := True
  rely_refl _ := trivial
  rely_trans _ _ _ _ _ := trivial
  pre log t _ := Disciplined deployment log t
  raises _ _ := True
  fails _ _ := True
  unknown _ _ := True
  loses := True

theorem wp_process_disciplined {deployment : Deployment} (delivery : Delivery deployment)
    (s : Ledger) :
    wp (disciplineSpec deployment) (process deployment delivery) (fun _ _ _ => True) [] s := by
  have stable : StablePost (disciplineSpec deployment)
      (fun (_ : Except PyException WorkerCycleOutcome) _ _ => True) := fun _ _ _ _ _ _ => trivial
  have works : ∀ source ready s (p : WorkerProgram WorkerCycleOutcome),
      (p.Ensures (WorksOn deployment source ready) fun _ => True) →
        wp (disciplineSpec deployment) p (fun _ _ _ => True) [⟨.claim, some (source, ready)⟩] s := by
    intro source ready s p ensures
    have grows : ∀ (log : List (Commit workerInterface)) (t : Transaction) (reply : t.Reply)
        (s s' : Ledger), (∃ rest, log = ⟨.claim, some (source, ready)⟩ :: rest) →
          WorksOn deployment source ready t → t.exec s = .ok (reply, s') →
            ∃ rest, log ++ [⟨t, reply⟩] = ⟨.claim, some (source, ready)⟩ :: rest := by
      rintro log t reply s s' ⟨rest, rfl⟩ _ _
      exact ⟨rest ++ [⟨t, reply⟩], rfl⟩
    refine wp_mono _ p (fun _ _ _ _ => trivial) _ s (wp_of_ensures (disciplineSpec deployment)
      grows (fun _ _ _ _ begins => begins) ?_ p _ s ⟨[], rfl⟩ ensures)
    rintro log t s ⟨rest, rfl⟩ works
    exact .works source ready rest t works
  unfold process
  refine wp_then_commit _ _ _ stable (fun _ _ _ _ => trivial) trivial
    (fun _ _ => .claims) ?_ (fun _ _ _ _ => trivial) (fun _ _ _ _ => trivial)
  intro s reply s' _ _
  refine ⟨?_, fun _ _ => trivial⟩
  match reply with
  | none => exact wp_pure _ stable trivial
  | some (source, true) => exact works source true s' _ ensures_processApply
  | some (source, false) => exact works source false s' _ (ensures_processValidation delivery)

theorem discipline_guarantees (deployment : Deployment) :
    Guarantees (service deployment) (disciplineSpec deployment) (fun _ => True)
      (fun _ _ _ => True) where
  exec := rfl
  loses := trivial
  environment _ _ _ _ _ := ⟨trivial, trivial⟩
  transaction _ _ _ _ _ _ _ _ := trivial
  starts delivery s _ := wp_process_disciplined delivery s

section Cycles

variable {deployment : Deployment}
  {allowed : ServiceWorld → ServiceAction deployment → Prop} {start world next : ServiceWorld}
  {action : ServiceAction deployment} {attempt : Nat}

/-- In any run a commit is one that the log of its attempt allows. -/
theorem commit_disciplined {entry : Nat × Commit workerInterface} (idle : start.Idle)
    (run : Reachable (service deployment) allowed start world)
    (stepped : (service deployment).step world action = some next)
    (grown : next.history = world.history ++ [entry]) :
    Disciplined deployment (commitsOf world.history entry.1) entry.2.transaction := by
  have permitted : Reachable (service deployment)
      (fun world action => Permits (disciplineSpec deployment) world action) start world :=
    run.weaken fun world action _ _ =>
      permits_any (fun _ _ => trivial) (fun _ _ => trivial) (fun _ _ => trivial) world action
  have tracks := interleaved_sound (discipline_guarantees deployment) (fun _ _ _ _ _ => trivial)
    idle trivial permitted
  obtain ⟨w, fault, before, thread, rfl, was, attempt, ran, _⟩ := step_commit stepped grown
  have permits : Permits (disciplineSpec deployment) world
      (.run w fault : ServiceAction deployment) :=
    permits_any (fun _ _ => trivial) (fun _ _ => trivial) (fun _ _ => trivial) world _
  rw [← attempt, ← (reachable_logged (.idle idle) run).logs w before was]
  exact ((tracks.request (discipline_guarantees deployment) permits was trivial ran).2 _ rfl).1

/-- A claim is the first commit of its attempt. -/
theorem claim_log {reply : Option (ReportSource × Bool)} (idle : start.Idle)
    (run : Reachable (service deployment) allowed start world)
    (stepped : (service deployment).step world action = some next)
    (grown : next.history = world.history ++ [(attempt, ⟨.claim, reply⟩)]) :
    commitsOf next.history attempt = [⟨.claim, reply⟩] := by
  have disciplined := commit_disciplined idle run stepped grown
  rw [grown, commitsOf_append, commitsOf_own]
  generalize commitsOf world.history attempt = log at disciplined
  cases disciplined with
  | claims => rfl
  | works source ready rest _ works => cases works.about

/-- What an attempt commits after its claim is work on the claimed report. -/
theorem commit_works {source : ReportSource} {ready : Bool} {rest : List (Commit workerInterface)}
    {commit : Commit workerInterface} (idle : start.Idle)
    (run : Reachable (service deployment) allowed start world)
    (stepped : (service deployment).step world action = some next)
    (grown : next.history = world.history ++ [(attempt, commit)])
    (claimed : commitsOf world.history attempt = ⟨.claim, some (source, ready)⟩ :: rest) :
    WorksOn deployment source ready commit.transaction := by
  have disciplined := commit_disciplined idle run stepped grown
  rw [claimed] at disciplined
  cases disciplined with
  | works _ _ _ _ works => exact works

/-- Every commit is one on the report that its attempt has claimed. -/
theorem commit_touches {commit : Commit workerInterface} (idle : start.Idle)
    (run : Reachable (service deployment) allowed start world)
    (stepped : (service deployment).step world action = some next)
    (grown : next.history = world.history ++ [(attempt, commit)]) :
    next.shared = world.shared ∨
      ∃ source ready, (attempt, ⟨.claim, some (source, ready)⟩) ∈ next.history ∧
        Touches world.shared next.shared source.id := by
  have executed := step_history stepped grown
  have disciplined := commit_disciplined idle run stepped grown
  obtain ⟨t, reply⟩ := commit
  generalize inLog : commitsOf world.history attempt = log at disciplined
  cases disciplined with
  | claims =>
      cases reply with
      | none => exact Or.inl (claim_idle executed)
      | some answer =>
          obtain ⟨source, ready⟩ := answer
          refine Or.inr ⟨source, ready, ?_, claim_touches executed⟩
          rw [grown]
          exact List.mem_append_right _ (List.mem_singleton_self _)
  | works source ready rest _ works =>
      have member : (⟨.claim, some (source, ready)⟩ : Commit workerInterface) ∈
          commitsOf world.history attempt := by
        rw [inLog]
        exact List.mem_cons_self
      refine Or.inr ⟨source, ready, ?_, exec_touches works.about executed⟩
      rw [grown]
      exact List.mem_append_left _ (mem_commitsOf.mp member)

end Cycles

/-! ## Steps of a locked run -/

/-- The run goes on. -/
def LockedLater (deployment : Deployment) (world later : ServiceWorld) : Prop :=
  Reachable (service deployment) (fun world action => Serialised world action ∧ Atomic world action)
    world later

/-- A step of a locked run in which an attempt commits. -/
structure Commits (deployment : Deployment) (world next : ServiceWorld) (attempt : Nat)
    (commit : Commit workerInterface) : Prop where
  stepped : ∃ action : ServiceAction deployment, Serialised world action ∧ Atomic world action ∧
    (service deployment).step world action = some next
  history : next.history = world.history ++ [(attempt, commit)]

section Locked

variable {deployment : Deployment} {faults : Faults} {world next later : ServiceWorld}
  {action : ServiceAction deployment}

theorem LockedRun.extend (run : LockedRun deployment world)
    (more : LockedLater deployment world later) : LockedRun deployment later :=
  Reachable.trans run more

/-- A transaction other than a claim finds its report in `processing`. -/
theorem Pre.processing {t : Transaction} {reply : t.Reply} {s s' : Ledger} {id : Nat}
    (pre : Pre deployment faults s t) (about : t.reportId = some id)
    (executed : t.exec s = .ok (reply, s')) : s' = s ∨
      ∃ report, s.db.reports.find id = some report ∧ report.status = .processing ∧
        (report.rowCount = 0 ∨ t = .apply id ∨ t = .markApplyFailed id) := by
  have claimed : ∀ {source : ReportSource}, Claimed source s → source.id = id →
      ∃ report, s.db.reports.find id = some report ∧ report.status = .processing ∧
        (report.rowCount = 0 ∨ t = .apply id ∨ t = .markApplyFailed id) := by
    rintro source ⟨report, found, _, status, none⟩ rfl
    exact ⟨report, found, status, Or.inl none⟩
  cases t with
  | claim => cases about
  | errorCount _ =>
      cases executed
      exact Or.inl rfl
  | writeStagingBatch _ _ | writeErrorBatch _ _ | insertDuplicateErrors _ _ =>
      obtain ⟨source, same, holds⟩ := pre
      cases about
      exact Or.inr (claimed holds same)
  | finalizeValidationFailure _ _ _ | markValidated _ _ | markProcessingFailed _ =>
      obtain ⟨source, same, holds, _⟩ := pre
      cases about
      exact Or.inr (claimed holds same)
  | apply _ =>
      obtain ⟨source, rfl, report, found, _, status, _⟩ := pre
      cases about
      exact Or.inr ⟨report, found, status, Or.inr (Or.inl rfl)⟩
  | markApplyFailed _ =>
      obtain ⟨source, rfl, ⟨report, found, _, status, _⟩, _⟩ := pre
      cases about
      exact Or.inr ⟨report, found, status, Or.inr (Or.inr rfl)⟩

theorem exec_apply_ends {id : Nat} {result : ApplyResult} {s s' : Ledger}
    (executed : Transaction.exec (.apply id) s = .ok (result, s')) : HasEnded id s' := by
  obtain ⟨db, ran, rfl⟩ := exec_apply executed
  obtain ⟨_, _, counters, _, _, _, _, changes⟩ := applyReport_changes ran
  exact ⟨_, congrArg ReportData.report changes.own, Or.inl rfl⟩

/-- An apply, or the note that it failed, ends its report. -/
theorem applies_ends {t : Transaction} {reply : t.Reply} {s s' : Ledger} {report : Report}
    (found : s.db.reports.find report.id = some report) (status : report.status = .processing)
    (applies : t = .apply report.id ∨ t = .markApplyFailed report.id)
    (executed : t.exec s = .ok (reply, s')) :
    HasEnded report.id s' := by
  rcases applies with rfl | rfl
  · exact exec_apply_ends executed
  · obtain ⟨db, written, rfl⟩ := store_ok executed
    obtain ⟨added, changes⟩ := markFailed_changes written
    rw [whileProcessing_found found status] at changes
    exact ⟨_, congrArg ReportData.report changes.own, Or.inr rfl⟩

/-- What one step of a locked run does to a report that it finds. -/
inductive StepOn (world next : ServiceWorld) (report : Report) : Prop
  | same (unchanged : next.shared.db.dataOf report.id = world.shared.db.dataOf report.id)
  | claims (ready : Bool) (claimed : claimOrRecoverNextReport world.shared.db =
      (some (reportSource report, ready), next.shared.db))
  | works (status : report.status = .processing) (none : report.rowCount = 0)
  | ends (status : report.status = .processing) (after : Report)
      (found : next.shared.db.reports.find report.id = some after) (ended : after.Terminal)

theorem LockedRun.stepOn (run : LockedRun deployment world) (serialised : Serialised world action)
    (atomic : Atomic world action) (stepped : (service deployment).step world action = some next)
    {report : Report} (found : world.shared.db.reports.find report.id = some report) :
    StepOn world next report := by
  have exclusive : Exclusive (service deployment) world action := by
    cases action with
    | run w fault => exact fun thread _ _ _ running _ => run.current running
    | environment _ | acquire _ _ | drop _ | leave _ => trivial
  rcases exclusive_step (any_guarantees deployment) run.tracks exclusive
    (atomic_permits atomic) stepped with
    same | ⟨e, happened⟩ | ⟨_, _, t, reply, _, _, pre, executed, _⟩
  · exact .same (by rw [same])
  · exact .same ((environment_keeps happened).data found)
  · have executed : t.exec world.shared = .ok (reply, next.shared) := executed
    have pre : Pre deployment .any world.shared t := pre
    cases about : t.reportId with
    | none =>
        cases t with
        | claim =>
            cases reply with
            | none => exact .same (by rw [claim_idle executed])
            | some answer =>
                obtain ⟨source, ready⟩ := answer
                by_cases mine : report.id = source.id
                · obtain ⟨claimed, _⟩ := exec_claim executed
                  obtain ⟨first, rfl, claims⟩ := claim_first claimed
                  have mine : report.id = first.id := mine
                  rw [mine] at found
                  cases claims.found.symm.trans found
                  exact .claims ready claimed
                · exact .same ((claim_touches executed).others report.id mine)
        | _ => cases about
    | some id =>
        by_cases mine : report.id = id
        · subst mine
          rcases pre.processing about executed with same | ⟨report', found', status, why⟩
          · exact .same (by rw [same])
          · cases found.symm.trans found'
            rcases why with none | applies
            · exact .works status none
            · obtain ⟨after, foundAfter, ended⟩ := applies_ends found status applies executed
              exact .ends status after foundAfter ended
        · exact .same ((exec_touches about executed).others report.id mine)

theorem step_succeeds (stepped : (service deployment).step world action = some next) {id : Nat}
    {report : Report} (found : world.shared.db.reports.find id = some report) :
    ∃ report', next.shared.db.reports.find id = some report' ∧ Succeeds report report' := by
  rcases step_shared stepped with ⟨same, _⟩ | ⟨e, _, happened, _⟩ |
    ⟨_, _, _, _, t, reply, _, _, _, executed, _⟩
  · rw [same]
    exact (Touches.refl _ id).succeeds found
  · exact ⟨report, (environment_keeps happened).found found, .refl report⟩
  · exact exec_succeeds executed found

/-! ## The order of the ends -/

/-- A report that has not been claimed waits for every report before it. -/
structure Waits (first : Report) (second : Nat) (world : ServiceWorld) : Prop where
  stays : ∃ report, world.shared.db.reports.find first.id = some report ∧
    report.createdAt = first.createdAt
  waits : ∀ report, world.shared.db.reports.find second = some report → first.Before report →
    report.status = .pending ∨
      HasEnded first.id world.shared

theorem Waits.step {first : Report} {second : Nat} (run : LockedRun deployment world)
    (waits : Waits first second world) (serialised : Serialised world action)
    (atomic : Atomic world action) (stepped : (service deployment).step world action = some next) :
    Waits first second next := by
  obtain ⟨now, foundNow, createdAt⟩ := waits.stays
  refine ⟨?_, ?_⟩
  · obtain ⟨now', foundNow', succeeds⟩ := step_succeeds stepped foundNow
    exact ⟨now', foundNow', succeeds.createdAt.trans createdAt⟩
  · intro report' found' before'
    have moves := run.moves serialised atomic stepped
    by_cases terminal : HasEnded first.id world.shared
    · obtain ⟨ended, foundEnded, terminal⟩ := terminal
      have same := ((moves first.id).steps foundEnded).terminal terminal
      exact Or.inr ⟨ended, (congrArg ReportData.report same).trans foundEnded, terminal⟩
    · left
      cases found : world.shared.db.reports.find second with
      | none =>
          have found' : (next.shared.db.dataOf second).report = some report' := found'
          cases moves second with
          | same unchanged =>
              rw [unchanged] at found'
              cases found.symm.trans found'
          | registered _ registered registeredFound status =>
              cases found'.symm.trans registeredFound
              exact status
          | moved _ _ before _ _ _ _ => cases found.symm.trans before
      | some report =>
          have key : report.id = second := ((Table.find_eq_some _).mp found).2
          subst key
          obtain ⟨after, foundAfter, succeeds⟩ := step_succeeds stepped found
          cases found'.symm.trans foundAfter
          have key' : report'.id = report.id := ((Table.find_eq_some _).mp found').2
          have before : first.Before report := by
            unfold Report.Before at before' ⊢
            rw [succeeds.createdAt, key'] at before'
            exact before'
          have pending := (waits.waits report found before).resolve_right terminal
          cases run.stepOn serialised atomic stepped found with
          | same unchanged =>
              cases found'.symm.trans ((congrArg ReportData.report unchanged).trans found)
              exact pending
          | claims ready claimed =>
              -- the first report is open and stands before the one claimed
              obtain ⟨claims, same, order⟩ := claim_first claimed
              have sameId : claims.id = report.id := congrArg ReportSource.id same
              have claimsFound := order.found
              rw [sameId] at claimsFound
              cases found.symm.trans claimsFound
              obtain ⟨member, nowId⟩ := (Table.find_eq_some _).mp foundNow
              have isOpen : now.isOpen = true := by
                by_contra closed
                exact terminal ⟨now, foundNow, Report.isOpen_eq_false.mp (by simpa using closed)⟩
              refine absurd ?_ (order.first now member isOpen)
              unfold Report.Before at before ⊢
              rw [createdAt, nowId]
              exact before
          | works status _ => cases pending.symm.trans status
          | ends status _ _ _ => cases pending.symm.trans status

theorem Waits.extend {first : Report} {second : Nat} (run : LockedRun deployment world)
    (waits : Waits first second world) (more : LockedLater deployment world later) :
    Waits first second later := by
  induction more with
  | start => exact waits
  | step action before admitted stepped ih =>
      exact ih.step (run.extend before) admitted.1 admitted.2 stepped

/-! ## A report that waits for its apply -/

/-- The data of the report are as they were, or it has ended. -/
def Survives (report : Report) (data : ReportData) (world : ServiceWorld) : Prop :=
  world.shared.db.dataOf report.id = data ∨
    HasEnded report.id world.shared

theorem Survives.step {report : Report} {data : ReportData} (run : LockedRun deployment world)
    (found : data.report = some report) (status : report.status = .processing)
    (complete : ∀ db : Database, db.dataOf report.id = data → validationIsComplete db report = true)
    (survives : Survives report data world) (serialised : Serialised world action)
    (atomic : Atomic world action) (stepped : (service deployment).step world action = some next) :
    Survives report data next := by
  rcases survives with same | ⟨ended, foundEnded, terminal⟩
  · subst same
    have ready := complete world.shared.db rfl
    cases run.stepOn serialised atomic stepped found with
    | same unchanged => exact Or.inl unchanged
    | claims ready claimed =>
        obtain ⟨claims, same, order⟩ := claim_first claimed
        have sameId : claims.id = report.id := congrArg ReportSource.id same
        have claimsFound := order.found
        rw [sameId] at claimsFound
        cases Option.some.inj (Eq.trans found.symm claimsFound)
        exact Or.inl (by rw [order.kept (order.complete.mpr ⟨status, complete _ rfl⟩)])
    | works _ none => exact absurd none (validationIsComplete_cases ready).1
    | ends _ after foundAfter ended => exact Or.inr ⟨after, foundAfter, ended⟩
  · have moves := run.moves serialised atomic stepped
    have same := ((moves report.id).steps foundEnded).terminal terminal
    exact Or.inr ⟨ended, (congrArg ReportData.report same).trans foundEnded, terminal⟩

theorem Survives.extend {report : Report} (run : LockedRun deployment world)
    (found : world.shared.db.reports.find report.id = some report)
    (status : report.status = .processing)
    (complete : validationIsComplete world.shared.db report = true)
    (more : LockedLater deployment world later) :
    Survives report (world.shared.db.dataOf report.id) later := by
  have kept : ∀ db : Database, db.dataOf report.id = world.shared.db.dataOf report.id →
      validationIsComplete db report = true :=
    fun db same => (validationIsComplete_congr same).trans complete
  induction more with
  | start => exact Or.inl rfl
  | step action before admitted stepped ih =>
      exact ih.step (run.extend before) found status kept admitted.1 admitted.2 stepped

/-- What an attempt commits after its claim. -/
theorem Commits.works {claimed before : ServiceWorld} {attempt : Nat} {source : ReportSource}
    {ready : Bool} {commit : Commit workerInterface} (run : LockedRun deployment world)
    (claims : Commits deployment world claimed attempt ⟨.claim, some (source, ready)⟩)
    (more : LockedLater deployment claimed before)
    (commits : Commits deployment before next attempt commit) :
    WorksOn deployment source ready commit.transaction ∧
      Touches before.shared next.shared source.id := by
  obtain ⟨action, serialised, atomic, stepped⟩ := claims.stepped
  obtain ⟨action', _, _, stepped'⟩ := commits.stepped
  have log := claim_log ServiceWorld.empty_idle run stepped claims.history
  have here : LockedRun deployment claimed := .step action run ⟨serialised, atomic⟩ stepped
  obtain ⟨rest, grown⟩ := commitsOf_prefix (reachable_history more) attempt
  rw [log] at grown
  have works := commit_works ServiceWorld.empty_idle (here.extend more) stepped' commits.history
    grown.symm
  exact ⟨works, exec_touches works.about (step_history stepped' commits.history)⟩

/-- A claim of a locked run. -/
theorem Commits.claim {attempt : Nat} {source : ReportSource} {ready : Bool}
    (claims : Commits deployment world next attempt ⟨.claim, some (source, ready)⟩) :
    (∃ report, reportSource report = source ∧
        ClaimsFirst world.shared.db next.shared.db report ready) ∧
      Touches world.shared next.shared source.id := by
  obtain ⟨action, _, _, stepped⟩ := claims.stepped
  have executed : Transaction.exec .claim world.shared = .ok (some (source, ready), next.shared) :=
    step_history stepped claims.history
  exact ⟨claim_first (exec_claim executed).1, claim_touches executed⟩

/-- The claim of a report that has waited for its apply. -/
theorem Survives.claim {report : Report} {attempt : Nat} {source : ReportSource} {ready : Bool}
    {data : ReportData} (found : data.report = some report)
    (status : report.status = .processing)
    (complete : ∀ db : Database, db.dataOf report.id = data → validationIsComplete db report = true)
    (survives : Survives report data world)
    (claims : Commits deployment world next attempt ⟨.claim, some (source, ready)⟩)
    (mine : source.id = report.id) :
    ready = true ∧ next.shared.db.dataOf report.id = data ∧
      ∀ other ∈ world.shared.db.reports.rows, other.Before report → other.Terminal := by
  obtain ⟨⟨claimed, rfl, first⟩, _⟩ := claims.claim
  have mine : claimed.id = report.id := mine
  have claimedFound := first.found
  rw [mine] at claimedFound
  rcases survives with same | ⟨ended, foundEnded, terminal⟩
  · cases Option.some.inj (found.symm.trans
      ((congrArg ReportData.report same).symm.trans claimedFound))
    have isReady := first.complete.mpr ⟨status, complete _ same⟩
    exact ⟨isReady, (by rw [first.kept isReady]; exact same), first.before⟩
  · cases foundEnded.symm.trans claimedFound
    have isOpen := first.isOpen
    rw [Report.isOpen_eq_false.mpr terminal] at isOpen
    cases isOpen

end Locked

/-- A step that changes the data of one report alone. -/
def OnlyOn (id : Nat) (world next : ServiceWorld) : Prop :=
  ∀ other, other ≠ id → next.shared.db.dataOf other = world.shared.db.dataOf other

/-- First in, first out: a cycle claims a report before which no open one stands and
changes no other; a report ends after those before it that were there when it was
claimed; and a report that is ready for apply stays so until the cycle that applies
it, with every report before it at an end. -/
theorem fifo_without_interference (deployment : Deployment) (world : ServiceWorld)
    (run : LockedRun deployment world) :
    (∀ claimed attempt source ready,
      Commits deployment world claimed attempt ⟨.claim, some (source, ready)⟩ →
        (∃ report, world.shared.db.reports.find source.id = some report ∧
          ∀ other ∈ world.shared.db.reports.rows, other.Before report → other.Terminal) ∧
        OnlyOn source.id world claimed ∧
        ∀ before next commit, LockedLater deployment claimed before →
          Commits deployment before next attempt commit → OnlyOn source.id before next) ∧
    (∀ next attempt commit, Commits deployment world next attempt commit →
      next.shared = world.shared ∨ ∃ source ready,
        (attempt, ⟨.claim, some (source, ready)⟩) ∈ next.history ∧ OnlyOn source.id world next) ∧
    (∀ first ∈ world.shared.db.reports.rows, ∀ later, LockedLater deployment world later →
      ∀ second ∈ later.shared.db.reports.rows, first.Before second →
        (∀ now, world.shared.db.reports.find second.id = some now → now.status = .pending) →
          second.Terminal →
            HasEnded first.id later.shared) ∧
    ∀ report ∈ world.shared.db.reports.rows, report.status = .processing →
      validationIsComplete world.shared.db report = true →
        ∀ later, LockedLater deployment world later →
          Survives report (world.shared.db.dataOf report.id) later ∧
          ∀ claimed attempt source ready,
            Commits deployment later claimed attempt ⟨.claim, some (source, ready)⟩ →
              source.id = report.id →
                ready = true ∧
                claimed.shared.db.dataOf report.id = world.shared.db.dataOf report.id ∧
                (∀ other ∈ later.shared.db.reports.rows, other.Before report → other.Terminal) ∧
                ∀ before next commit, LockedLater deployment claimed before →
                  Commits deployment before next attempt commit →
                    commit.transaction = .apply report.id ∨
                      commit.transaction = .markApplyFailed report.id := by
  refine ⟨?_, ?_, ?_, ?_⟩
  · intro claimed attempt source ready claims
    obtain ⟨⟨report, rfl, first⟩, touches⟩ := claims.claim
    refine ⟨⟨report, first.found, first.before⟩, touches.others, ?_⟩
    intro before next commit more commits
    exact (claims.works run more commits).2.others
  · intro next attempt commit commits
    obtain ⟨action, _, _, stepped⟩ := commits.stepped
    rcases commit_touches ServiceWorld.empty_idle run stepped commits.history with
      same | ⟨source, ready, claimed, touches⟩
    · exact Or.inl same
    · exact Or.inr ⟨source, ready, claimed, touches.others⟩
  · intro first member later more second memberLater before pending terminal
    have waits : Waits first second.id world := by
      refine ⟨⟨first, (Table.find_eq_some _).mpr ⟨member, rfl⟩, rfl⟩, ?_⟩
      intro now found _
      exact Or.inl (pending now found)
    have found : later.shared.db.reports.find second.id = some second :=
      (Table.find_eq_some _).mpr ⟨memberLater, rfl⟩
    refine ((waits.extend run more).waits second found before).resolve_left ?_
    intro waiting
    rcases terminal with completed | failed
    · cases waiting.symm.trans completed
    · cases waiting.symm.trans failed
  · intro report member status complete later more
    have found : world.shared.db.reports.find report.id = some report :=
      (Table.find_eq_some _).mpr ⟨member, rfl⟩
    have kept : ∀ db : Database, db.dataOf report.id = world.shared.db.dataOf report.id →
        validationIsComplete db report = true :=
      fun db same => (validationIsComplete_congr same).trans complete
    have survives := Survives.extend run found status complete more
    refine ⟨survives, ?_⟩
    intro claimed attempt source ready claims mine
    obtain ⟨rfl, same, ended⟩ := survives.claim found status kept claims mine
    refine ⟨rfl, same, ended, ?_⟩
    intro before next commit goesOn commits
    have works := (claims.works (run.extend more) goesOn commits).1
    rw [← mine]
    exact works

/-- The first report is ready for apply when an earlier one becomes visible, whose
two cycles come first. -/
def lateActions : List (ServiceAction sampleDeployment) :=
  .environment (.register ⟨1, "stock.csv", "originals", "first", 80, none, 1⟩) :: sampleCycle 19 ++
    [.environment (.register ⟨2, "stock.csv", "originals", "second", 80, none, 0⟩)]

theorem lateActions_run :
    ((service sampleDeployment).runs ServiceWorld.empty lateActions).isSome = true := by
  decide +kernel

def lateWorld : ServiceWorld :=
  ((service sampleDeployment).runs ServiceWorld.empty lateActions).get lateActions_run

theorem lateWorld_locked : LockedRun sampleDeployment lateWorld := by
  refine solo_locked ?_ (Option.some_get lateActions_run).symm
  simp [lateActions, sampleCycle, sampleStart, Action.Solo]

theorem fifo_without_interference_lateWorld :
    (∃ report ∈ lateWorld.shared.db.reports.rows, report.status = .processing ∧
      validationIsComplete lateWorld.shared.db report = true ∧
        ∃ other ∈ lateWorld.shared.db.reports.rows, other.createdAt < report.createdAt ∧
          other.status = .pending) ∧
    ∀ report ∈ lateWorld.shared.db.reports.rows, report.status = .processing →
      validationIsComplete lateWorld.shared.db report = true →
        ∀ later, LockedLater sampleDeployment lateWorld later →
          Survives report (lateWorld.shared.db.dataOf report.id) later := by
  refine ⟨by decide +kernel, ?_⟩
  intro report member status complete later more
  exact ((fifo_without_interference sampleDeployment lateWorld lateWorld_locked).2.2.2 report member
    status complete later more).1

end StockImport.Worker
