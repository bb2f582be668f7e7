import Mathlib.Algebra.Group.Action.Defs
import Mathlib.Algebra.Order.BigOperators.Group.List
import StockImport.Worker.Queue

/-!
# The queue drains

Cycles that keep their lock and whose claim and notes of failure go through; any
other step may raise, before its transaction commits or after.  Nothing is asked of
the tables they start from.

Each cycle takes the first open report one step on: to the end of its validation,
from which the next cycle applies it, or to its own end.  So a report needs two
cycles at most (`cyclesLeft`), and twice as many cycles as there are open reports
leave none.
-/

set_option autoImplicit false

namespace StockImport.Worker

open Csv Db Tables Transactional

/-! ## Cycles that keep their lock -/

/-- The claim, and the notes that a report has failed. -/
def Transaction.goesThrough : Transaction → Bool
  | .claim => true
  | .markProcessingFailed _ => true
  | .markApplyFailed _ => true
  | _ => false

/-- `ensure_lock_connection_alive` alone raises `LockConnectionLost`, and the
connection is alive. -/
def drainFaults : Faults where
  raises _ e := e ≠ .lockConnectionLost
  fails t e := t.goesThrough = false ∧ e ≠ .lockConnectionLost
  loses := False

/-- No report is registered. -/
def Environment.Quiet : Environment → Prop
  | .register _ => False
  | .tick => True

def drainSpec (deployment : Deployment) : Spec workerInterface Ledger where
  exec := Transaction.exec
  rely s s' := Keeps deployment s s' ∧ ∀ id, s'.db.dataOf id = s.db.dataOf id
  rely_refl s := ⟨Keeps.refl deployment s, fun _ => rfl⟩
  rely_trans _ _ _ first second :=
    ⟨first.1.trans second.1, fun id => (second.2 id).trans (first.2 id)⟩
  pre _ _ _ := True
  raises := drainFaults.raises
  fails := drainFaults.fails
  unknown := drainFaults.fails
  loses := False

/-- Lock-holding cycles one after the other, each to its end. -/
def Draining (deployment : Deployment) : ServiceWorld → ServiceAction deployment → Prop :=
  Undisturbed (drainSpec deployment) Environment.Quiet

/-- Workers at rest over any database. -/
def ServiceWorld.atRest (s : Ledger) : ServiceWorld := { ServiceWorld.empty with shared := s }

/-- A report whose validation has ended well. -/
def HasValidated (reportId : Nat) (s : Ledger) : Prop :=
  ∃ report, s.db.reports.find reportId = some report ∧ report.status = .processing ∧
    validationIsComplete s.db report = true

/-- The end of the work on a claimed report: it has ended, or waits for its apply. -/
def Settled (source : ReportSource) (ready : Bool) : Post workerInterface Ledger WorkerCycleOutcome :=
  fun result _ s => HasEnded source.id s ∨
    (ready = false ∧ result = .ok .validated ∧ HasValidated source.id s)

section Cycle

variable {deployment : Deployment} {source : ReportSource}

theorem HasValidated.congr {id : Nat} {s s' : Ledger} (same : s'.db.dataOf id = s.db.dataOf id)
    (complete : HasValidated id s) : HasValidated id s' := by
  obtain ⟨report, found, status, whole⟩ := complete
  have key : report.id = id := ((Table.find_eq_some _).mp found).2
  exact ⟨report, (congrArg ReportData.report same).trans found, status,
    (validationIsComplete_congr (key ▸ same)).trans whole⟩

theorem HasEnded.congr {id : Nat} {s s' : Ledger} (same : s'.db.dataOf id = s.db.dataOf id)
    (ended : HasEnded id s) : HasEnded id s' := by
  obtain ⟨report, found, terminal⟩ := ended
  exact ⟨report, (congrArg ReportData.report same).trans found, terminal⟩

theorem Ready.complete {s : Ledger} (ready : Ready deployment source s) : HasValidated source.id s := by
  obtain ⟨report, found, same, status, none, valid, staged, errors⟩ := ready
  have key : report.id = source.id := congrArg ReportSource.id same
  refine ⟨report, found, status, ?_⟩
  have count : (s.db.stagingOf source.id).length = report.rowCount := by
    rw [← valid.length, ← staged, Database.stagedRows, List.length_map]
  unfold validationIsComplete
  rw [if_neg (by simp [none, Nat.ne_of_gt valid.lines.1]), key]
  simp [count, errors]

theorem settled_stable (source : ReportSource) (ready : Bool) :
    StablePost (drainSpec deployment) (Settled source ready) := by
  rintro result log s s' ⟨_, same⟩ (ended | ⟨unready, validated, complete⟩)
  · exact Or.inl (ended.congr (same source.id))
  · exact Or.inr ⟨unready, validated, complete.congr (same source.id)⟩

theorem started_stable :
    Stable (drainSpec deployment) fun s => Started source.id s :=
  fun _ _ others started => started.keep others.1

/-- No exception but that of the lock connection tells that the lock is lost. -/
theorem Blames.not_lost {e : PyException} (blames : Blames deployment drainFaults source e) :
    e ≠ .lockConnectionLost := by
  cases blames with
  | raised c _ raises => exact raises
  | failed t _ fails => exact fails.2
  | refused _ same => simp [same]
  | stream raised =>
      rw [validateBytes_raises raised]
      simp

/-- A note of failure goes through on every report, and ends it where it is still in
`processing`. -/
theorem note_ends {issue : ValidationIssue} {set : Nat → Report → Report}
    {keeps : ∀ errorCount report, (set errorCount report).id = report.id} {id : Nat} {s : Ledger}
    (started : Started id s) (failed : ∀ count report, (set count report).status = .failed) :
    ∃ db, markFailed issue set keeps id s.db = .ok db ∧ HasEnded id { s with db := db } := by
  obtain ⟨report, found, notPending⟩ := started
  have known : (s.db.deleteStaging id).hasReport id = true := by
    simp only [Database.hasReport]
    have same : (s.db.deleteStaging id).reports.find id = some report := found
    simp [same]
  obtain ⟨db₁, inserted⟩ := insertErrors_ok [issue] known
  have marked : markFailed issue set keeps id s.db = .ok (db₁.updateProcessing id
      (set (atLeastOne (errorCount id db₁))) (keeps (atLeastOne (errorCount id db₁)))) := by
    simp only [markFailed, inserted]
  refine ⟨_, marked, ?_⟩
  obtain ⟨added, changes⟩ := markFailed_changes marked
  rw [found] at changes
  refine ⟨_, congrArg ReportData.report changes.own, ?_⟩
  unfold whileProcessing
  split
  · exact Or.inr (failed _ _)
  · next notProcessing =>
      unfold Report.Terminal
      cases status : report.status <;> simp_all

theorem exec_note {t : Transaction} {id : Nat} {s : Ledger}
    (note : t = .markProcessingFailed id ∨ t = .markApplyFailed id) (started : Started id s) :
    ∃ reply s', t.exec s = .ok (reply, s') ∧ HasEnded id s' := by
  rcases note with rfl | rfl
  · have ends : ∃ db, Db.markProcessingFailed id s.db = .ok db ∧
        HasEnded id { s with db := db } := note_ends started fun _ _ => rfl
    obtain ⟨db, marked, ended⟩ := ends
    exact ⟨(), { s with db := db }, congrArg s.store marked, ended⟩
  · have ends : ∃ db, Db.markApplyFailed id s.db = .ok db ∧
        HasEnded id { s with db := db } := note_ends started fun _ _ => rfl
    obtain ⟨db, marked, ended⟩ := ends
    exact ⟨(), { s with db := db }, congrArg s.store marked, ended⟩

/-- The handlers of a cycle end the report. -/
theorem wp_note {t : Transaction} {log : List (Commit workerInterface)} {s : Ledger}
    (note : t = .markProcessingFailed source.id ∨ t = .markApplyFailed source.id)
    (started : Started source.id s)
    {post : Post workerInterface Ledger WorkerCycleOutcome}
    (stable : StablePost (drainSpec deployment) post)
    (ends : ∀ log s, HasEnded source.id s → post (.ok .processingFailed) log s) :
    wp (drainSpec deployment)
      (assertLockAlive >>= fun _ => inTransaction t >>= fun _ => pure .processingFailed)
      post log s := by
  have through : t.goesThrough = true := by
    rcases note with rfl | rfl <;> rfl
  refine wp_then_assertLock _ _ _ stable ?_ (fun lost => lost.elim)
  refine wp_then_commit _ _ _ stable started_stable started (fun _ _ => trivial) ?_ ?_ ?_
  · intro s reply s' started executed
    obtain ⟨reply', s'', accepted, ended⟩ := exec_note note started
    cases accepted.symm.trans executed
    refine ⟨wp_pure _ stable (ends _ _ ended), fun e unknown => ?_⟩
    have failing : t.goesThrough = false := unknown.1
    simp [through] at failing
  · intro s e started refused
    obtain ⟨reply', s'', accepted, _⟩ := exec_note note started
    cases accepted.symm.trans refused
  · intro s e _ fails
    have failing : t.goesThrough = false := fails.1
    simp [through] at failing

theorem wp_validate_draining (delivery : Delivery deployment)
    {log : List (Commit workerInterface)} {s : Ledger} (stored : Stored source s [] [])
    (written : Written deployment source.id log [] []) :
    wp (drainSpec deployment) (validate deployment delivery source)
      (fun result log s => Started source.id s ∧
        (Validated deployment drainFaults source result log s ∨
          ∃ e, result = .error e ∧ e ≠ .lockConnectionLost)) log s := by
  have locked : wp (lockedSpec deployment drainFaults) (validate deployment delivery source)
      (Validated deployment drainFaults source) log s := wp_validate delivery stored written
  refine wp_mono _ _ ?_ log s
    (wp_propagates (lockedSpec deployment drainFaults) (drainSpec deployment)
      (fun _ _ others => others.1) (fun lost => lost.elim) (fun _ _ raises => raises)
      (fun _ _ _ fails => fails) (fun _ _ _ _ _ => trivial) (fun _ _ _ => rfl) started_stable
      (fun t reply s s' _ started executed => started.exec executed) _ log s
      (propagates_validate deployment delivery source) (ensures_validate delivery)
      (started_of_claimed stored.claimed) locked)
  rintro result log s ⟨started, ends | ⟨_, e, rfl, unknown⟩⟩
  · exact ⟨started, Or.inl ends⟩
  · exact ⟨started, Or.inr ⟨e, rfl, unknown.2⟩⟩

theorem wp_processValidation_draining (delivery : Delivery deployment)
    {log : List (Commit workerInterface)} {s : Ledger} (stored : Stored source s [] [])
    (written : Written deployment source.id log [] []) :
    wp (drainSpec deployment) (processValidation deployment delivery source)
      (Settled source false) log s := by
  have stable : StablePost (drainSpec deployment) (Settled source false) := settled_stable _ _
  unfold processValidation
  refine wp_handle _ _ _ stable
    (wp_mono _ _ ?_ _ _ (wp_validate_draining delivery stored written))
  rintro result log s ⟨started, ends⟩
  cases result with
  | ok outcome =>
      rcases ends with ⟨_, ⟨rfl, ready⟩ | ⟨rfl, refused⟩⟩ | ⟨_, same, _⟩
      · exact Or.inr ⟨rfl, rfl, ready.complete⟩
      · obtain ⟨report, found, _, status, _⟩ := refused.report
        exact Or.inl ⟨report, found, Or.inr status⟩
      · cases same
  | error e =>
      have kept : e ≠ .lockConnectionLost := by
        rcases ends with ⟨_, ⟨lost, _⟩ | blames⟩ | ⟨_, same, kept⟩
        · exact lost.elim
        · exact blames.not_lost
        · cases same
          exact kept
      dsimp only
      unfold unlessLockLost
      rw [if_neg kept]
      exact wp_note (Or.inl rfl) started stable (fun _ _ ended => Or.inl ended)

/-- The end of `apply` on any report at work. -/
def ApplyDrained (source : ReportSource) : Post workerInterface Ledger ApplyResult :=
  fun result _ s =>
    match result with
    | .ok _ => HasEnded source.id s
    | .error e => Started source.id s ∧ e ≠ .lockConnectionLost

theorem applyDrained_stable : StablePost (drainSpec deployment) (ApplyDrained source) := by
  rintro result log s s' others ended
  cases result with
  | ok result => exact HasEnded.congr (others.2 source.id) ended
  | error e => exact ⟨ended.1.keep others.1, ended.2⟩

theorem applyReport_error {id : Nat} {db : Database} {e : PyException}
    (refused : applyReport id db = .error e) : e ≠ .lockConnectionLost := by
  unfold applyReport at refused
  repeat' split at refused
  all_goals first | cases refused; simp | cases refused

theorem wp_apply_draining {log : List (Commit workerInterface)} {s : Ledger}
    (started : Started source.id s) :
    wp (drainSpec deployment) (apply source.id) (ApplyDrained source) log s := by
  have stable : StablePost (drainSpec deployment) (ApplyDrained source) := applyDrained_stable
  unfold apply
  refine wp_then_assertLock _ _ _ stable ?_ (fun lost => lost.elim)
  refine wp_bind _ _ _ stable (wp_runSteps (stablePost_bind _ _ stable) _ _ _ _ ?_ ?_)
  · refine wp_commit _ _ stable started_stable started (fun _ _ => trivial) ?_ ?_
      (fun _ _ started fails => ⟨started, fails.2⟩)
    · intro s result s' started executed
      have executed : Transaction.exec (.apply source.id) s = .ok (result, s') := executed
      exact ⟨exec_apply_ends executed, fun e unknown => ⟨started.exec executed, unknown.2⟩⟩
    · intro s e started refused
      have refused : Transaction.exec (.apply source.id) s = .error e := refused
      refine ⟨started, ?_⟩
      simp only [Transaction.exec] at refused
      cases ran : applyReport source.id s.db with
      | ok answer => simp [ran] at refused
      | error e' =>
          simp only [ran, Except.error.injEq] at refused
          exact refused ▸ applyReport_error ran
  · rintro e (⟨lost, _⟩ | ⟨step, raised⟩)
    · exact lost.elim
    · exact ⟨started, raised⟩

theorem wp_processApply_draining {log : List (Commit workerInterface)} {s : Ledger}
    (started : Started source.id s) :
    wp (drainSpec deployment) (processApply source.id) (Settled source true) log s := by
  have stable : StablePost (drainSpec deployment) (Settled source true) := settled_stable _ _
  unfold processApply
  refine wp_handle _ _ _ stable (wp_bind _ _ _ (stablePost_handle _ _ stable)
    (wp_mono _ _ ?_ _ _ (wp_apply_draining started)))
  intro result log s ended
  cases result with
  | ok result => exact wp_pure _ (stablePost_handle _ _ stable) (Or.inl ended)
  | error e =>
      obtain ⟨started, kept⟩ := ended
      dsimp only
      unfold unlessLockLost
      rw [if_neg kept]
      exact wp_handle _ _ _ stable (wp_note (Or.inr rfl) started (stablePost_handle _ _ stable)
        (fun _ _ ended => Or.inl ended))

/-- The reports but one have the data they had before. -/
def OthersKeep (id : Nat) (before s : Ledger) : Prop :=
  ∀ other, other ≠ id → s.db.dataOf other = before.db.dataOf other

/-- A cycle leaves the other reports alone. -/
theorem wp_othersKeep {ready : Bool} {before s : Ledger} {log : List (Commit workerInterface)}
    {p : WorkerProgram WorkerCycleOutcome}
    (asks : p.Ensures (WorksOn deployment source ready) fun _ => True)
    (others : OthersKeep source.id before s) :
    wp (drainSpec deployment) p (fun _ _ s => OthersKeep source.id before s) log s := by
  have keeps : ∀ _ : List (Commit workerInterface),
      Stable (drainSpec deployment) (OthersKeep source.id before) :=
    fun _ s s' quiet others other different =>
      (quiet.2 other).trans (others other different)
  have commits : ∀ (_ : List (Commit workerInterface)) (t : Transaction) (reply : t.Reply)
      (s s' : Ledger), OthersKeep source.id before s → WorksOn deployment source ready t →
        t.exec s = .ok (reply, s') → OthersKeep source.id before s' :=
    fun _ t reply s s' others works executed other different =>
      ((exec_touches works.about executed).others other different).trans (others other different)
  exact wp_mono _ p (fun _ _ _ holds => holds.2) _ s
    (wp_of_ensures (drainSpec deployment) commits keeps (fun _ _ _ _ _ => trivial) p log s others asks)

end Cycle

/-! ## The cycles that are left -/

/-- How many cycles the report still needs: one for its validation and one for its
apply. -/
def cyclesLeft (s : Ledger) (reportId : Nat) : Nat :=
  match s.db.reports.find reportId with
  | none => 0
  | some report =>
      if report.isOpen = false then 0
      else if report.status = .processing ∧ validationIsComplete s.db report = true then 1
      else 2

def openReports (db : Database) : List Report := db.reports.rows.filter Report.isOpen

def remaining (reportIds : List Nat) (s : Ledger) : Nat := (reportIds.map (cyclesLeft s)).sum

section Measure

variable {s s' : Ledger} {id : Nat} {report : Report}

theorem cyclesLeft_le (s : Ledger) (id : Nat) : cyclesLeft s id ≤ 2 := by
  unfold cyclesLeft
  split
  · exact Nat.zero_le 2
  · split
    · exact Nat.zero_le 2
    · split
      · exact Nat.le_succ 1
      · exact Nat.le_refl 2

theorem cyclesLeft_congr (same : s'.db.dataOf id = s.db.dataOf id) :
    cyclesLeft s' id = cyclesLeft s id := by
  have reports : s'.db.reports.find id = s.db.reports.find id := congrArg ReportData.report same
  unfold cyclesLeft
  rw [reports]
  cases found : s.db.reports.find id with
  | none => rfl
  | some report =>
      have key : report.id = id := ((Table.find_eq_some _).mp found).2
      dsimp only
      rw [validationIsComplete_congr (key ▸ same)]

theorem cyclesLeft_ended (ended : HasEnded id s) : cyclesLeft s id = 0 := by
  obtain ⟨report, found, terminal⟩ := ended
  simp [cyclesLeft, found, Report.isOpen_eq_false.mpr terminal]

theorem cyclesLeft_open (found : s.db.reports.find id = some report) (isOpen : report.isOpen = true) :
    cyclesLeft s id =
      if report.status = .processing ∧ validationIsComplete s.db report = true then 1 else 2 := by
  simp [cyclesLeft, found, isOpen]

theorem cyclesLeft_complete (complete : HasValidated id s) : cyclesLeft s id = 1 := by
  obtain ⟨report, found, status, whole⟩ := complete
  rw [cyclesLeft_open found (by simp [Report.isOpen, status]), if_pos ⟨status, whole⟩]

/-- The work on a claimed report is one cycle less. -/
theorem Settled.decreases {db : Database} {ready : Bool}
    {result : Except PyException WorkerCycleOutcome} {log : List (Commit workerInterface)}
    (first : ClaimsFirst s.db db report ready)
    (settled : Settled (reportSource report) ready result log s') :
    cyclesLeft s' report.id < cyclesLeft s report.id := by
  rw [cyclesLeft_open first.found first.isOpen]
  rcases settled with ended | ⟨unready, _, complete⟩
  · have none : cyclesLeft s' report.id = 0 := cyclesLeft_ended ended
    rw [none]
    split
    · exact Nat.one_pos
    · exact Nat.two_pos
  · have one : cyclesLeft s' report.id = 1 := cyclesLeft_complete complete
    have incomplete : ¬ (report.status = .processing ∧ validationIsComplete s.db report = true) := by
      rw [← first.complete, unready]
      simp
    rw [one, if_neg incomplete]
    exact Nat.one_lt_two

theorem remaining_decreases {reportIds : List Nat} (member : id ∈ reportIds)
    (others : OthersKeep id s s') (less : cyclesLeft s' id < cyclesLeft s id) :
    remaining reportIds s' < remaining reportIds s := by
  refine List.sum_lt_sum _ _ ?_ ⟨id, member, less⟩
  intro other _
  by_cases mine : other = id
  · subst mine
    exact Nat.le_of_lt less
  · exact Nat.le_of_eq (cyclesLeft_congr (others other mine))

/-- After `cycles` cycles every open report is one of `reportIds`, and each cycle has
taken one off what they need. -/
structure Progress (reportIds : List Nat) (cycles : Nat) (s : Ledger) : Prop where
  covers : ∀ report ∈ s.db.reports.rows, report.isOpen = true → report.id ∈ reportIds
  left : remaining reportIds s + cycles ≤ 2 * reportIds.length ∨
    ∀ report ∈ s.db.reports.rows, report.Terminal

theorem Progress.start (s : Ledger) :
    Progress ((openReports s.db).map Report.id) 0 s where
  covers report member isOpen := List.mem_map_of_mem (List.mem_filter.mpr ⟨member, isOpen⟩)
  left := by
    left
    rw [Nat.add_zero, remaining, Nat.mul_comm]
    refine le_trans (List.sum_le_card_nsmul _ 2 ?_) ?_
    · intro left member
      obtain ⟨id, _, rfl⟩ := List.mem_map.mp member
      exact cyclesLeft_le s id
    · rw [List.length_map, smul_eq_mul]

/-- Twice as many cycles as reports leave none open. -/
theorem Progress.drained {reportIds : List Nat} {cycles : Nat} (progress : Progress reportIds cycles s)
    (enough : 2 * reportIds.length ≤ cycles) : ∀ report ∈ s.db.reports.rows, report.Terminal := by
  rcases progress.left with left | terminal
  · intro report member
    by_contra running
    have isOpen : report.isOpen = true := by
      simpa using fun closed => running (Report.isOpen_eq_false.mp closed)
    have found : s.db.reports.find report.id = some report :=
      (Table.find_eq_some _).mpr ⟨member, rfl⟩
    have some : 0 < cyclesLeft s report.id := by
      rw [cyclesLeft_open found isOpen]
      split
      · exact Nat.one_pos
      · exact Nat.two_pos
    have atLeast : cyclesLeft s report.id ≤ remaining reportIds s :=
      List.single_le_sum (fun _ _ => Nat.zero_le _) _
        (List.mem_map_of_mem (progress.covers report member isOpen))
    omega
  · exact terminal

theorem member_congr (same : ∀ id, s'.db.dataOf id = s.db.dataOf id)
    (member : report ∈ s'.db.reports.rows) : report ∈ s.db.reports.rows := by
  have found : s'.db.reports.find report.id = some report :=
    (Table.find_eq_some _).mpr ⟨member, rfl⟩
  have before : s.db.reports.find report.id = some report :=
    (congrArg ReportData.report (same report.id)).symm.trans found
  exact ((Table.find_eq_some _).mp before).1

theorem progress_stable (deployment : Deployment) (reportIds : List Nat) (cycles : Nat) :
    Stable (drainSpec deployment) (Progress reportIds cycles) := by
  rintro s s' ⟨_, same⟩ ⟨covers, left⟩
  refine ⟨fun report member => covers report (member_congr same member), ?_⟩
  rcases left with left | terminal
  · left
    have equal : remaining reportIds s' = remaining reportIds s :=
      congrArg List.sum (List.map_congr_left fun id _ => cyclesLeft_congr (same id))
    omega
  · exact Or.inr fun report member => terminal report (member_congr same member)

/-- One more cycle, which has settled the report that it claimed. -/
theorem Progress.step {reportIds : List Nat} {cycles : Nat} {db : Database} {ready : Bool}
    {result : Except PyException WorkerCycleOutcome} {log : List (Commit workerInterface)}
    (progress : Progress reportIds cycles s) (first : ClaimsFirst s.db db report ready)
    (others : OthersKeep report.id s s')
    (settled : Settled (reportSource report) ready result log s') :
    Progress reportIds (cycles + 1) s' := by
  have member : report ∈ s.db.reports.rows := ((Table.find_eq_some _).mp first.found).1
  have claimed : report.id ∈ reportIds := progress.covers report member first.isOpen
  refine ⟨?_, ?_⟩
  · intro other isMember isOpen
    by_cases mine : other.id = report.id
    · rw [mine]
      exact claimed
    · have found : s'.db.reports.find other.id = some other :=
        (Table.find_eq_some _).mpr ⟨isMember, rfl⟩
      have before : s.db.reports.find other.id = some other :=
        (congrArg ReportData.report (others other.id mine)).symm.trans found
      exact progress.covers other ((Table.find_eq_some _).mp before).1 isOpen
  · have less : remaining reportIds s' < remaining reportIds s :=
      remaining_decreases claimed others (settled.decreases first)
    rcases progress.left with left | terminal
    · left
      omega
    · have closed := Report.isOpen_eq_false.mpr (terminal report member)
      cases first.isOpen.symm.trans closed

end Measure

/-- What a cycle that has ended shows: an empty queue, or the report that it claimed
settled. -/
def CycleSettled : Post workerInterface Ledger WorkerCycleOutcome := fun result log s =>
  (log = [⟨.claim, none⟩] ∧ ∀ report ∈ s.db.reports.rows, report.Terminal) ∨
    ∃ source ready, [⟨.claim, some (source, ready)⟩] <+: log ∧ Settled source ready result log s

def CycleDrained (reportIds : List Nat) (cycles : Nat) :
    Post workerInterface Ledger WorkerCycleOutcome :=
  fun result log s => Progress reportIds cycles s ∧ CycleSettled result log s

section Drain

variable {deployment : Deployment}

theorem cycleDrained_stable (reportIds : List Nat) (cycles : Nat) :
    StablePost (drainSpec deployment) (CycleDrained reportIds cycles) := by
  rintro result log s s' others ⟨progress, settled⟩
  refine ⟨progress_stable deployment _ _ s s' others progress, ?_⟩
  rcases settled with ⟨claimed, terminal⟩ | ⟨source, ready, claimed, settled⟩
  · exact Or.inl ⟨claimed, fun report member => terminal report (member_congr others.2 member)⟩
  · have stable : StablePost (drainSpec deployment) (Settled source ready) :=
      settled_stable source ready
    exact Or.inr ⟨source, ready, claimed, stable result log s s' others settled⟩

theorem wp_drained {p : WorkerProgram WorkerCycleOutcome} {reportIds : List Nat} {cycles : Nat}
    {s s' : Ledger} {db : Database} {report : Report} {ready : Bool}
    (progress : Progress reportIds cycles s) (first : ClaimsFirst s.db db report ready)
    (others : OthersKeep report.id s s')
    (asks : p.Ensures (WorksOn deployment (reportSource report) ready) fun _ => True)
    (settles : wp (drainSpec deployment) p (Settled (reportSource report) ready)
      [⟨.claim, some (reportSource report, ready)⟩] s') :
    wp (drainSpec deployment) p (CycleDrained reportIds (cycles + 1))
      [⟨.claim, some (reportSource report, ready)⟩] s' := by
  refine wp_mono _ p ?_ _ s' (wp_extends _ p (wp_and _ p _ s' settles (wp_othersKeep asks others)))
  rintro result log s'' ⟨claimed, settled, others⟩
  exact ⟨progress.step first others settled, Or.inr ⟨_, ready, claimed, settled⟩⟩

theorem wp_process_draining (delivery : Delivery deployment) {reportIds : List Nat} {cycles : Nat}
    {s : Ledger} (progress : Progress reportIds cycles s) :
    wp (drainSpec deployment) (process deployment delivery)
      (CycleDrained reportIds (cycles + 1)) [] s := by
  have stable : StablePost (drainSpec deployment) (CycleDrained reportIds (cycles + 1)) :=
    cycleDrained_stable _ _
  unfold process
  refine wp_then_commit _ _ _ stable (progress_stable deployment reportIds cycles) progress
    (fun _ _ => trivial) ?_ (fun _ _ _ refused => by cases refused) ?_
  · intro s reply s' progress executed
    have executed : Transaction.exec .claim s = .ok (reply, s') := executed
    refine ⟨?_, fun e unknown => ?_⟩
    · obtain ⟨claimed, same⟩ := exec_claim executed
      match reply with
      | none =>
          obtain ⟨unchanged, terminal⟩ := claim_none claimed
          rw [same, unchanged]
          exact wp_pure _ stable
            ⟨⟨progress.covers, Or.inr terminal⟩, Or.inl ⟨rfl, terminal⟩⟩
      | some (source, ready) =>
          obtain ⟨report, rfl, first⟩ := claim_first claimed
          have others : OthersKeep report.id s s' := (claim_touches executed).others
          cases ready with
          | true =>
              have started : Started report.id s' := by
                rw [same, first.kept rfl]
                exact ⟨report, first.found, by simp [(first.complete.mp rfl).1]⟩
              exact wp_drained progress first others ensures_processApply
                (wp_processApply_draining started)
          | false =>
              have stored : Stored (reportSource report) s' [] [] :=
                same ▸ stored_of_claim (first.cleared rfl)
              refine wp_drained progress first others (ensures_processValidation delivery)
                (wp_processValidation_draining delivery stored ?_)
              exact ⟨rfl, by simp [stagingBatches], rfl, by simp [errorBatches]⟩
    · have failing : Transaction.goesThrough .claim = false := unknown.1
      cases failing
  · intro s e _ fails
    have failing : Transaction.goesThrough .claim = false := fails.1
    cases failing

theorem drain_advances (deployment : Deployment) (reportIds : List Nat) :
    Advances (service deployment) (drainSpec deployment) Environment.Quiet (Progress reportIds)
      (CycleDrained reportIds) where
  exec := rfl
  environment e s s' quiet happened := by
    cases e with
    | register _ => exact quiet.elim
    | tick =>
        refine ⟨environment_keeps happened, ?_⟩
        cases happened
        exact fun id => rfl
  stable := progress_stable deployment reportIds
  starts _ delivery s progress := wp_process_draining delivery progress
  ends _ _ _ _ drained := drained.1

/-! ## After a validation -/

/-- The report has ended or waits for its apply, and no cycle at work validates it. -/
structure Handed (id : Nat) (world : ServiceWorld) : Prop where
  settled : HasEnded id world.shared ∨ HasValidated id world.shared
  working : ∀ w thread, world.threads w = some thread →
    (∃ result, thread.program = .done result) ∨
      ∀ source, ⟨.claim, some (source, false)⟩ ∈ thread.log → source.id ≠ id

/-- A claim leaves the report to its apply. -/
theorem Handed.claim {id : Nat} {s s' : Ledger} {source : ReportSource} {ready : Bool}
    (settled : HasEnded id s ∨ HasValidated id s) (mine : source.id = id)
    (executed : Transaction.exec .claim s = .ok (some (source, ready), s')) :
    ready = true ∧ s' = s := by
  obtain ⟨claimed, same⟩ := exec_claim executed
  obtain ⟨report, rfl, first⟩ := claim_first claimed
  have mine : report.id = id := mine
  subst mine
  rcases settled with ⟨ended, found, terminal⟩ | ⟨whole, found, status, complete⟩
  · cases first.found.symm.trans found
    have closed := Report.isOpen_eq_false.mpr terminal
    cases first.isOpen.symm.trans closed
  · cases first.found.symm.trans found
    have isReady := first.complete.mpr ⟨status, complete⟩
    exact ⟨isReady, by rw [same, first.kept isReady]⟩

theorem Handed.exec {id : Nat} {t : Transaction} {reply : t.Reply} {s s' : Ledger}
    {log : List (Commit workerInterface)} (settled : HasEnded id s ∨ HasValidated id s)
    (working : ∀ source, ⟨.claim, some (source, false)⟩ ∈ log → source.id ≠ id)
    (disciplined : Disciplined deployment log t) (executed : t.exec s = .ok (reply, s')) :
    HasEnded id s' ∨ HasValidated id s' := by
  have others : s'.db.dataOf id = s.db.dataOf id → HasEnded id s' ∨ HasValidated id s' :=
    fun same => settled.imp (HasEnded.congr same) (HasValidated.congr same)
  cases disciplined with
  | claims =>
      cases reply with
      | none => exact others (by rw [claim_idle executed])
      | some answer =>
          obtain ⟨source, ready⟩ := answer
          by_cases mine : source.id = id
          · exact others (by rw [(Handed.claim settled mine executed).2])
          · exact others ((claim_touches executed).others id (Ne.symm mine))
  | works source ready rest t works =>
      by_cases mine : source.id = id
      · cases ready with
        | false => exact absurd mine (working source List.mem_cons_self)
        | true =>
            rcases settled with ended | ⟨report, found, status, _⟩
            · exact Or.inl (ended.exec executed)
            · have key : report.id = source.id := ((Table.find_eq_some _).mp found).2.trans mine.symm
              have applies : t = .apply report.id ∨ t = .markApplyFailed report.id := key ▸ works
              have ended := applies_ends (by rw [key, mine]; exact found) status applies executed
              exact Or.inl (by rw [← mine, ← key]; exact ended)
      · exact others ((exec_touches works.about executed).others id (Ne.symm mine))

theorem Handed.step {allowed : ServiceWorld → ServiceAction deployment → Prop} {reportId : Nat}
    {start world next : ServiceWorld} {action : ServiceAction deployment} (idle : start.Idle)
    (run : Reachable (service deployment) allowed start world) (handed : Handed reportId world)
    (stepped : (service deployment).step world action = some next) : Handed reportId next := by
  obtain ⟨settled, working⟩ := id handed
  -- a program that goes on has not ended
  have goesOn : ∀ {w fault before after}, world.threads w = some before →
      before.run (service deployment).exec fault world.shared = some after →
        ∀ source, ⟨.claim, some (source, false)⟩ ∈ before.log → source.id ≠ reportId := by
    intro w fault before after was ran
    refine (working w before was).resolve_left ?_
    rintro ⟨result, program⟩
    simp [Thread.run, program] at ran
  refine ⟨?_, ?_⟩
  · rcases step_shared stepped with ⟨same, _⟩ | ⟨e, _, happened, _⟩ |
      ⟨w, fault, before, thread, t, reply, rfl, was, ran, executed, history⟩
    · rw [same]
      exact settled
    · have keeps := environment_keeps happened
      rcases settled with ended | complete
      · obtain ⟨report, found, _⟩ := id ended
        exact Or.inl (ended.congr (keeps.data found))
      · obtain ⟨report, found, _⟩ := id complete
        exact Or.inr (complete.congr (keeps.data found))
    · have disciplined : Disciplined deployment before.log t := by
        rw [(reachable_logged (.idle idle) run).logs w before was]
        exact commit_disciplined idle run stepped history
      exact Handed.exec settled (goesOn was ran) disciplined executed
  · intro w thread running
    rcases step_thread stepped running with ⟨delivery, _, rfl⟩ |
      ⟨before, was, ⟨_, rfl⟩ | ⟨_, rfl⟩ | ⟨fault, commit, _, ran⟩⟩
    · exact Or.inr fun source member => by cases member
    · exact working w _ was
    · exact working w before was
    · right
      intro source member
      have old := goesOn was ran source
      rcases (Thread.run_cases ran).2.2 with ⟨_, _, log⟩ | ⟨t, reply, _, _, executed, _, log⟩
      · exact old (log ▸ member)
      · rw [log] at member
        rcases List.mem_append.mp member with before | new
        · exact old before
        · cases List.mem_singleton.mp new
          intro mine
          cases (Handed.claim settled mine executed).1

theorem Handed.later {allowed allowed' : ServiceWorld → ServiceAction deployment → Prop}
    {reportId : Nat} {start world later : ServiceWorld} (idle : start.Idle)
    (run : Reachable (service deployment) allowed start world) (handed : Handed reportId world)
    (more : Reachable (service deployment) allowed' world later) : Handed reportId later := by
  have all : Reachable (service deployment) (fun _ _ => True) start world :=
    run.weaken fun _ _ _ _ => trivial
  induction more with
  | start => exact handed
  | step action before _ stepped ih =>
      exact ih.step idle (all.trans (before.weaken fun _ _ _ _ => trivial)) stepped

/-- A report stays in any run. -/
theorem reachable_succeeds {allowed : ServiceWorld → ServiceAction deployment → Prop} {id : Nat}
    {start world : ServiceWorld} {report : Report}
    (run : Reachable (service deployment) allowed start world)
    (found : start.shared.db.reports.find id = some report) :
    ∃ report', world.shared.db.reports.find id = some report' := by
  induction run with
  | start => exact ⟨report, found⟩
  | step action _ _ stepped ih =>
      obtain ⟨before, foundBefore⟩ := ih
      obtain ⟨after, foundAfter, _⟩ := step_succeeds stepped foundBefore
      exact ⟨after, foundAfter⟩

end Drain

/-- From any database, two lock-holding cycles for each open report leave every report
at its end.  Each cycle settles the report that it claims; and once a cycle has
returned `validated`, a later claim of its report, whatever the workers do, is for
the apply. -/
theorem queue_drains (deployment : Deployment) (s : Ledger) (world : ServiceWorld)
    (run : Reachable (service deployment) (Draining deployment) (ServiceWorld.atRest s) world) :
    ((∀ w thread, world.threads w = some thread → ∃ result, thread.program = .done result) →
      2 * (openReports s.db).length ≤ world.attempts →
        ∀ report ∈ s.db.reports.rows, HasEnded report.id world.shared) ∧
    (∀ w thread result, world.threads w = some thread → thread.program = .done result →
      CycleSettled result thread.log world.shared) ∧
    ∀ w thread source ready, world.threads w = some thread →
      thread.program = .done (.ok .validated) →
        [⟨.claim, some (source, ready)⟩] <+: thread.log →
          ∀ later next action attempt again ready',
            Reachable (service deployment) (fun _ _ => True) world later →
              (service deployment).step later action = some next →
                next.history = later.history ++ [(attempt, ⟨.claim, some (again, ready')⟩)] →
                  again.id = source.id → ready' = true := by
  have idle : (ServiceWorld.atRest s).Idle := ⟨fun _ => rfl, rfl, rfl⟩
  have advanced := undisturbed_advanced
    (drain_advances deployment ((openReports s.db).map Report.id)) idle (Progress.start s) run
  have drained : ∀ w thread result, world.threads w = some thread →
      thread.program = .done result →
        CycleDrained ((openReports s.db).map Report.id) world.attempts result thread.log
          world.shared := by
    intro w thread result running program
    have holds := advanced.working w thread running
    rw [program] at holds
    exact holds world.shared ((drainSpec deployment).rely_refl _)
  refine ⟨?_, fun w thread result running program => (drained w thread result running program).2, ?_⟩
  · intro finished enough report member
    have progress : Progress ((openReports s.db).map Report.id) world.attempts world.shared := by
      by_cases resting : ∀ w, world.threads w = none
      · exact advanced.resting resting
      · simp only [not_forall] at resting
        obtain ⟨w, running⟩ := resting
        obtain ⟨thread, running⟩ := Option.ne_none_iff_exists'.mp running
        obtain ⟨result, program⟩ := finished w thread running
        exact (drained w thread result running program).1
    obtain ⟨report', found⟩ := reachable_succeeds run ((Table.find_eq_some _).mpr ⟨member, rfl⟩)
    refine ⟨report', found, ?_⟩
    refine progress.drained ?_ report' ((Table.find_eq_some _).mp found).1
    rw [List.length_map]
    exact enough
  · intro w thread source ready running program claimed later next action attempt again ready' more
      stepped grown mine
    have handed : Handed source.id world := by
      refine ⟨?_, ?_⟩
      · obtain ⟨rest, claimed⟩ := claimed
        rcases (drained w thread _ running program).2 with
          ⟨log, _⟩ | ⟨other, ready', ⟨rest', log⟩, settled⟩
        · cases claimed.trans log
        · have same : other = source := by
            cases log.trans claimed.symm
            rfl
          subst same
          rcases settled with ended | ⟨_, _, complete⟩
          · exact Or.inl ended
          · exact Or.inr complete
      · intro other thread' running'
        have alone := serialised_current (fun _ _ => undisturbed_serialised) idle run
        cases Option.some.inj ((alone w thread running).symm.trans (alone other thread' running'))
        cases running.symm.trans running'
        exact Or.inl ⟨_, program⟩
    have executed : Transaction.exec .claim later.shared = .ok (some (again, ready'), next.shared) :=
      step_history stepped grown
    exact (Handed.claim (handed.later idle run more).settled mine executed).1

theorem queue_drains_lateWorld :
    (openReports lateWorld.shared.db).length = 2 ∧
      ∃ world, Reachable (service sampleDeployment) (Draining sampleDeployment)
          (ServiceWorld.atRest lateWorld.shared) world ∧
        ∀ report ∈ lateWorld.shared.db.reports.rows, HasEnded report.id world.shared := by
  have count : (openReports lateWorld.shared.db).length = 2 := by decide +kernel
  obtain ⟨world, run, attempts, resting, _⟩ :
      ∃ later, Reachable (service sampleDeployment) (Draining sampleDeployment)
          (ServiceWorld.atRest lateWorld.shared) later ∧ later.attempts = 0 + 4 ∧
        (∀ w, later.threads w = none) ∧ later.owner = none :=
    undisturbed_attempts _ _ 0 sampleDelivery (fun _ => rfl) rfl 4
  refine ⟨count, world, run, (queue_drains sampleDeployment lateWorld.shared world run).1 ?_ ?_⟩
  · intro w thread running
    cases (resting w).symm.trans running
  · rw [count, attempts]

end StockImport.Worker
