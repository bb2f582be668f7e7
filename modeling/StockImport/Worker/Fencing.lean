import StockImport.Worker.Lifecycle

/-!
# Overlapping attempts

`assert_lock_alive` and the transaction behind it are two steps.  A worker whose
lock connection drops in between still commits, also when another worker has
claimed the report by then: the rows that it stages collide with those of the new
attempt, which fails a valid report.

Where every transaction commits before another worker gets the lock, the attempts
commit one after the other and a valid report never fails.
-/

set_option autoImplicit false

namespace StockImport.Worker

open Csv Db Tables Transactional

/-! ## Late commits -/

/-- The report that a commit claims. -/
def claims (commit : Commit workerInterface) : Option Nat :=
  match commit with
  | ⟨.claim, some (source, _)⟩ => some source.id
  | _ => none

/-- The report whose row, staging rows or errors a commit changes. -/
def writes (commit : Commit workerInterface) : Option Nat :=
  match commit with
  | ⟨.claim, some (source, false)⟩ => some source.id
  | ⟨.claim, _⟩ => none
  | ⟨.errorCount _, _⟩ => none
  | ⟨t, _⟩ => t.reportId

/-- After the claim of a report no earlier attempt changes it. -/
def NoLateCommits (history : List (Nat × Commit workerInterface)) : Prop :=
  history.Pairwise fun claim later => (claims claim.2).isSome → writes later.2 = claims claim.2 →
    claim.1 ≤ later.1

/-- The storage reads and the statements for a report do not fail on their own
account, and the database takes its texts. -/
structure Untroubled (deployment : Deployment) (raises : ExternalCall → PyException → Prop)
    (fails : Transaction → PyException → Prop) (source : ReportSource) : Prop where
  calls : ∀ c e, c.reportId = source.id → ¬ raises c e
  transactions : ∀ t e, t.reportId = some source.id → ¬ fails t e
  storable : Storable deployment source

/-- No report with a valid file and no trouble of its own has failed. -/
def ValidNeverFails (deployment : Deployment) (raises : ExternalCall → PyException → Prop)
    (fails : Transaction → PyException → Prop) (world : ServiceWorld) : Prop :=
  ∀ report ∈ world.shared.db.reports.rows,
    (∃ rowCount, ValidFile deployment (reportSource report) rowCount) →
      Untroubled deployment raises fails (reportSource report) → report.status ≠ .failed

/-! ## Two attempts that overlap -/

/-- Worker 0 loses its connection between its last check and its staging batch;
worker 1 claims the report, and both insert the same lines. -/
def overlapActions : List (ServiceAction sampleDeployment) :=
  [sampleRegistration 1 "first"] ++ sampleStart 10 ++
    [.drop 0, .acquire 1 sampleDelivery, .run 1 .none, .run 0 .none] ++
      List.replicate 12 (.run 1 .none)

theorem overlapActions_run :
    ((service sampleDeployment).runs ServiceWorld.empty overlapActions).isSome = true := by
  decide +kernel

def overlapWorld : ServiceWorld :=
  ((service sampleDeployment).runs ServiceWorld.empty overlapActions).get overlapActions_run

theorem sampleSource_valid : ValidFile sampleDeployment sampleSource 2 where
  result := by decide +kernel
  clean := by decide +kernel
  distinct := by decide +kernel

/-- In a run without a failure of any call or statement the older attempt commits
after the claim of the newer one, and the valid report ends in `failed`. -/
theorem overlap_fails_valid_report :
    Reachable (service sampleDeployment)
        (fun world action => Permits (lockedSpec sampleDeployment
          ⟨fun _ _ => False, fun _ _ => False, True⟩) world action)
        ServiceWorld.empty overlapWorld ∧
      ¬ NoLateCommits overlapWorld.history ∧
      ¬ ValidNeverFails sampleDeployment (fun _ _ => False) (fun _ _ => False) overlapWorld := by
  refine ⟨?_, ?_, ?_⟩
  · refine reachable_runs overlapActions _ _ ?_ .start (Option.some_get overlapActions_run).symm
    simp [overlapActions, sampleRegistration, sampleStart, Permits]
  · unfold NoLateCommits
    decide +kernel
  · intro never
    have failed : ∃ report ∈ overlapWorld.shared.db.reports.rows,
        reportSource report = sampleSource ∧ report.status = .failed := by decide +kernel
    obtain ⟨report, member, same, status⟩ := failed
    refine never report member ⟨2, same ▸ sampleSource_valid⟩ ?_ status
    rw [same]
    exact ⟨fun _ _ _ => id, fun _ _ _ => id, by decide +kernel, by decide +kernel⟩

/-! ## Attempts that do not overlap -/

theorem noLateCommits_of_ordered {history : List (Nat × Commit workerInterface)}
    (ordered : (history.map Prod.fst).Pairwise (· ≤ ·)) : NoLateCommits history := by
  rw [List.pairwise_map] at ordered
  exact ordered.imp fun order _ _ => order

theorem Untroubled.no_cause {deployment : Deployment} {raises : ExternalCall → PyException → Prop}
    {fails : Transaction → PyException → Prop} {loses : Prop} {source : ReportSource}
    (untroubled : Untroubled deployment raises fails source) {rowCount : Nat}
    (valid : ValidFile deployment source rowCount) :
    ¬ HasCause deployment ⟨raises, fails, loses⟩ source := by
  rintro (invalid | ⟨e, _, blames⟩)
  · exact invalid rowCount valid
  · cases blames with
    | raised c about raised => exact untroubled.calls c e about raised
    | failed t about failed => exact untroubled.transactions t e about failed
    | refused unstorable _ => exact unstorable untroubled.storable
    | stream raised =>
        rw [valid.result] at raised
        cases raised

section Exclusive

variable {deployment : Deployment} {raises : ExternalCall → PyException → Prop}
  {fails : Transaction → PyException → Prop} {world : ServiceWorld}

theorem exclusive_noLateCommits
    (run : Reachable (service deployment) (Exclusive (service deployment)) ServiceWorld.empty
      world) : NoLateCommits world.history :=
  noLateCommits_of_ordered
    (exclusive_ordered (fun _ _ exclusive => exclusive) ServiceWorld.empty_idle run).1

theorem exclusive_validNeverFails
    (run : Reachable (service deployment)
      (fun world action => Exclusive (service deployment) world action ∧
        Permits (lockedSpec deployment ⟨raises, fails, True⟩) world action)
      ServiceWorld.empty world) : ValidNeverFails deployment raises fails world := by
  intro report member valid untroubled failed
  obtain ⟨rowCount, valid⟩ := valid
  have tracks := exclusive_sound (service_guarantees deployment trivial)
    ServiceWorld.empty_idle (.empty deployment ⟨raises, fails, True⟩) run
  have found : world.shared.db.reports.find report.id = some report :=
    (Table.find_eq_some _).mpr ⟨member, rfl⟩
  exact untroubled.no_cause valid (tracks.1.explained report.id report found failed)

end Exclusive

/-- Where a worker commits only before another one gets the lock, no earlier attempt
commits after a claim, and a valid report without trouble of its own never fails. -/
theorem exclusive_attempts (deployment : Deployment) :
    (∀ world, Reachable (service deployment) (Exclusive (service deployment)) ServiceWorld.empty
        world → NoLateCommits world.history) ∧
    ∀ raises fails world,
      Reachable (service deployment)
          (fun world action => Exclusive (service deployment) world action ∧
            Permits (lockedSpec deployment ⟨raises, fails, True⟩) world action)
          ServiceWorld.empty world →
        ValidNeverFails deployment raises fails world :=
  ⟨fun _ run => exclusive_noLateCommits run, fun _ _ _ run => exclusive_validNeverFails run⟩

/-- Worker 0 has committed a staging batch when its connection drops; worker 1 takes the
report over and validates it, and worker 0 applies it in its next cycle. -/
def takeoverActions : List (ServiceAction sampleDeployment) :=
  [sampleRegistration 1 "first"] ++ sampleStart 11 ++
    [.drop 0, .acquire 1 sampleDelivery, .run 1 .none, .run 0 .none, .leave 0] ++
      List.replicate 18 (.run 1 .none) ++ [.leave 1] ++ sampleStart 13

theorem takeoverActions_run :
    ((service sampleDeployment).runs ServiceWorld.empty takeoverActions).isSome = true := by
  decide +kernel

def takeoverWorld : ServiceWorld :=
  ((service sampleDeployment).runs ServiceWorld.empty takeoverActions).get takeoverActions_run

theorem takeoverWorld_exclusive :
    Reachable (service sampleDeployment)
      (fun world action => Exclusive (service sampleDeployment) world action ∧
        Permits (lockedSpec sampleDeployment ⟨fun _ _ => False, fun _ _ => False, True⟩) world action)
      ServiceWorld.empty takeoverWorld := by
  have permitted : ∀ action ∈ takeoverActions, ∀ world : ServiceWorld,
      Permits (lockedSpec sampleDeployment ⟨fun _ _ => False, fun _ _ => False, True⟩) world
        action := by
    simp [takeoverActions, sampleRegistration, sampleStart, Permits]
  refine reachable_commitsPass (fun world action _ => world.current == action.worker)
    takeoverActions _ _ ?_ .start (by decide +kernel) (Option.some_get takeoverActions_run).symm
  intro action member world passes
  refine ⟨exclusive_of_commitOf fun t commits => ?_, permitted action member world⟩
  exact beq_iff_eq.mp (passes t commits)

theorem takeoverWorld_completes :
    takeoverWorld.history.map Prod.fst = [0, 0, 1, 1, 1, 1, 1, 2, 2] ∧
      ∃ report ∈ takeoverWorld.shared.db.reports.rows, report.status = .completed := by
  decide +kernel

theorem exclusive_attempts_takeoverWorld :
    (takeoverWorld.history.map Prod.fst = [0, 0, 1, 1, 1, 1, 1, 2, 2] ∧
        ∃ report ∈ takeoverWorld.shared.db.reports.rows, report.status = .completed) ∧
      NoLateCommits takeoverWorld.history ∧
      ValidNeverFails sampleDeployment (fun _ _ => False) (fun _ _ => False) takeoverWorld :=
  ⟨takeoverWorld_completes,
    (exclusive_attempts sampleDeployment).1 takeoverWorld
      (takeoverWorld_exclusive.weaken fun _ _ _ admitted => admitted.1),
    (exclusive_attempts sampleDeployment).2 _ _ takeoverWorld takeoverWorld_exclusive⟩

/-- It is enough that no connection is lost between the check and the commit. -/
theorem fenced_attempts {deployment : Deployment} {raises : ExternalCall → PyException → Prop}
    {fails : Transaction → PyException → Prop} {world : ServiceWorld}
    (run : Reachable (service deployment)
      (fun world action => Fenced (service deployment) world action ∧
        Permits (lockedSpec deployment ⟨raises, fails, True⟩) world action)
      ServiceWorld.empty world) :
    NoLateCommits world.history ∧ ValidNeverFails deployment raises fails world := by
  have exclusive := fenced_exclusive ServiceWorld.empty_idle run
  exact ⟨exclusive_noLateCommits (exclusive.weaken fun _ _ _ admitted => admitted.1),
    exclusive_validNeverFails exclusive⟩

end StockImport.Worker
