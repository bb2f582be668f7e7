import StockImport.Db.Reapply
import StockImport.Worker.Overlapping

/-!
# A file that is sent again

A client that does not hear of its upload sends the file once more.  Where no report in
between has spoken for its warehouses or renamed its products, the second import finds
everything in place.
-/

set_option autoImplicit false

namespace StockImport.Worker

open PyText Csv Db Tables Transactional Snapshots

/-- An apply that commits. -/
structure Completes (s s' : Ledger) (report : Report) (counters : Counters) : Prop where
  found : s.db.reports.find report.id = some report
  ready : readyForApply s.db report = true
  statements : applyStatements s.db.inventory (s.db.stagedRows report.id) s.db.now =
    some (s'.db.inventory, counters)
  row : s'.db.reports.find report.id = some (report.complete s.db.now counters)
  completions : s'.completions = s.completions ++ [reportSource report]

section Steps

variable {deployment : Deployment} {world next : ServiceWorld} {action : ServiceAction deployment}

theorem step_completes (stepped : (service deployment).step world action = some next) :
    next.shared.completions = world.shared.completions ∨
      ∃ report counters, Completes world.shared next.shared report counters := by
  rcases step_shared stepped with ⟨same, _⟩ | ⟨e, _, happened, _⟩ |
    ⟨_, _, _, _, t, reply, _, _, _, executed, _⟩
  · exact Or.inl (congrArg Ledger.completions same)
  · exact Or.inl (environment_joins happened).completions
  · cases exec_rowEffect executed with
    | moved _ _ _ _ _ completions _ => exact Or.inl completions
    | applied report counters found ready statements rows completions =>
        exact Or.inr ⟨report, counters, found, ready, statements, by rw [rows, if_pos rfl],
          completions⟩

/-- The step at which a report was completed, as the next one after `earlier`. -/
structure CompletedAt (deployment : Deployment) (earlier : List ReportSource)
    (source : ReportSource) (world before after : ServiceWorld) : Prop where
  run : AnyRun deployment before
  step : ∃ action, (service deployment).step before action = some after
  later : Reachable (service deployment) (fun _ _ => True) after world
  before : before.shared.completions = earlier
  after : after.shared.completions = earlier ++ [source]

theorem AnyRun.completedAt (run : AnyRun deployment world) {earlier later : List ReportSource}
    {source : ReportSource} (shape : world.shared.completions = earlier ++ source :: later) :
    ∃ before after, CompletedAt deployment earlier source world before after := by
  induction run generalizing later with
  | start => simp [ServiceWorld.empty, Ledger.empty] at shape
  | @step world next action run permitted stepped ih =>
      have extend : (∃ before after, CompletedAt deployment earlier source world before after) →
          ∃ before after, CompletedAt deployment earlier source next before after := by
        intro ⟨before, after, completed⟩
        exact ⟨before, after, completed.run, completed.step,
          .step action completed.later permitted stepped, completed.before, completed.after⟩
      rcases step_completes stepped with same | ⟨report, counters, completes⟩
      · exact extend (ih (same ▸ shape))
      · have grown := completes.completions
        rw [shape] at grown
        rcases List.eq_nil_or_concat later with rfl | ⟨later, newest, rfl⟩
        · obtain ⟨same, _⟩ := List.append_inj' grown rfl
          exact ⟨world, next, run, ⟨action, stepped⟩, .start, same.symm, shape⟩
        · rw [List.concat_eq_append, ← List.cons_append, ← List.append_assoc] at grown
          obtain ⟨same, _⟩ := List.append_inj' grown rfl
          exact extend (ih same.symm)

/-- Once completed, a report keeps its counters. -/
theorem completed_stays {id : Nat} {report : Report} {world later : ServiceWorld}
    (found : world.shared.db.reports.find id = some report)
    (completed : report.status = .completed)
    (run : Reachable (service deployment) (fun _ _ => True) world later) :
    later.shared.db.reports.find id = some report := by
  induction run with
  | start => exact found
  | step action _ _ stepped ih =>
      obtain ⟨report', found', moves⟩ := step_rowMoves stepped ih
      rw [found', moves.terminal (Or.inl completed)]

end Steps

/-! ## Sent again -/

/-- The file of a completed report was completed before, and the reports in between spare
its places and items. -/
structure Resubmitted (deployment : Deployment) (completions earlier between : List ReportSource)
    (first again : ReportSource) : Prop where
  order : ∃ later, completions = (earlier ++ first :: between) ++ again :: later
  file : deployment.file again = deployment.file first
  consistent : snapshotLayout.Consistent (deployment.fileRows first)
  spared : ∀ other ∈ between,
    snapshotLayout.Spares (deployment.fileRows other) (deployment.fileRows first)

/-- Behind the lock the rows of a completed file agree. -/
theorem completed_consistent {deployment : Deployment} {world : ServiceWorld}
    (run : LockedRun deployment world) {source : ReportSource}
    (completed : source ∈ world.shared.completions) :
    snapshotLayout.Consistent (deployment.fileRows source) := by
  obtain ⟨rowCount, valid⟩ := run.sound.valid source completed
  exact consistent_of_distinct valid.distinct

/-- An import of a file that is in place writes no row of the inventory, and the report says
so in all its counters. -/
theorem resubmission_changes_nothing (deployment : Deployment) (world : ServiceWorld)
    (run : AnyRun deployment world) (earlier between : List ReportSource)
    (first again : ReportSource)
    (resubmitted : Resubmitted deployment world.shared.completions earlier between first again) :
    (∃ before after, CompletedAt deployment (earlier ++ first :: between) again world before after ∧
      SameRows before.shared.db.inventory after.shared.db.inventory) ∧
    ∃ report, world.shared.db.reports.find again.id = some report ∧ report.status = .completed ∧
      report.stocksCreated = 0 ∧ report.stocksUpdated = 0 ∧ report.stocksZeroed = 0 := by
  obtain ⟨later, shape⟩ := resubmitted.order
  obtain ⟨before, after, completed⟩ := run.completedAt shape
  obtain ⟨action, stepped⟩ := completed.step
  obtain ⟨sound, replayed⟩ := completed.run.replayed
  rcases step_completes stepped with same | ⟨report, counters, completes⟩
  · rw [completed.before, completed.after] at same
    simp at same
  · have last := completes.completions
    rw [completed.before, completed.after] at last
    have source : again = reportSource report := by simpa using last
    -- what the apply reads is the file, which is in place
    have rows : deployment.fileRows first = deployment.fileRows (reportSource report) := by
      simp only [Deployment.fileRows, Deployment.fileRun, ← resubmitted.file, source]
    have replays := replayed.replays
    rw [completed.before, List.map_append, List.map_cons] at replays
    have settled := replays.settled resubmitted.consistent rfl (by simpa using resubmitted.spared)
    rw [rows] at settled
    have staged : snapshotLayout.Settled (before.shared.db.stagedRows report.id)
        before.shared.db.inventory.view := by
      refine settled.congr (fun row => ((sound.wholeFile completes.found completes.ready).2 row).symm)
        fun row member row' member' => ?_
      exact List.inj_on_of_nodup_map (fileRows_lines deployment (reportSource report)) member member'
    obtain ⟨sameRows, rfl⟩ := applyStatements_settled staged completes.statements
    have kept : world.shared.db.reports.find report.id =
        some (report.complete before.shared.db.now ⟨0, 0, 0⟩) :=
      completed_stays completes.row rfl completed.later
    rw [source]
    exact ⟨⟨before, after, source ▸ completed, sameRows⟩, _, kept, rfl, rfl, rfl, rfl⟩

/-- Two keys with one file, and one of another warehouse. -/
def retryDeployment : Deployment where
  limits := ⟨100, 200, 10, 40⟩
  batchSize := 2
  batchSize_pos := Nat.two_pos
  original _ objectKey := Utf8Escape.encode <| PyText.ofString <|
    if objectKey = "other" then
      "warehouse_code,warehouse_name,sku,product_name,quantity\nV,v,T,t,7\n"
    else "warehouse_code,warehouse_name,sku,product_name,quantity\nW,w,S,s,1\nW,w,T,t,2\n"

def retryDelivery : Delivery retryDeployment where
  chunking source := ⟨[retryDeployment.file source], List.append_nil _⟩
  sizes := sampleDelivery.sizes

def retryRegistration (id : Nat) (objectKey : String) : ServiceAction retryDeployment :=
  .environment (.register ⟨id, "stock.csv", "originals", objectKey, 80, none, 0⟩)

def retryCycle (requests : Nat) : List (ServiceAction retryDeployment) :=
  .acquire 0 retryDelivery :: List.replicate requests (.run 0 .none) ++ [.leave 0]

def retryActions : List (ServiceAction retryDeployment) :=
  [retryRegistration 1 "first", retryRegistration 2 "other", retryRegistration 3 "second"] ++
    retryCycle 19 ++ retryCycle 13 ++ retryCycle 19 ++ retryCycle 13 ++ retryCycle 19 ++ retryCycle 13

theorem retryActions_run :
    ((service retryDeployment).runs ServiceWorld.empty retryActions).isSome = true := by
  decide +kernel

def retryWorld : ServiceWorld :=
  ((service retryDeployment).runs ServiceWorld.empty retryActions).get retryActions_run

theorem retryWorld_reached : AnyRun retryDeployment retryWorld :=
  reachable_runs retryActions _ _ (fun _ _ _ => trivial) .start
    (Option.some_get retryActions_run).symm

theorem resubmission_changes_nothing_retryWorld :
    (∃ before after : ServiceWorld, after.shared.completions.map ReportSource.id = [1, 2, 3] ∧
      SameRows before.shared.db.inventory after.shared.db.inventory) ∧
    ∃ report, retryWorld.shared.db.reports.find 3 = some report ∧ report.status = .completed ∧
      report.stocksCreated = 0 ∧ report.stocksUpdated = 0 ∧ report.stocksZeroed = 0 := by
  -- what the theorem asks of the two files, read off them once
  have files : (∀ row ∈ retryDeployment.fileRows ⟨1, "originals", "first"⟩,
        ∀ row' ∈ retryDeployment.fileRows ⟨2, "originals", "other"⟩,
          snapshotLayout.place row' ≠ snapshotLayout.place row ∧
            (snapshotLayout.item row' = snapshotLayout.item row →
              snapshotLayout.itemName row' = snapshotLayout.itemName row)) ∧
      DistinctPairs (retryDeployment.fileRows ⟨1, "originals", "first"⟩) := by
    decide +kernel
  obtain ⟨apart, distinct⟩ := files
  have spared : ∀ other ∈ [(⟨2, "originals", "other"⟩ : ReportSource)], snapshotLayout.Spares
      (retryDeployment.fileRows other) (retryDeployment.fileRows ⟨1, "originals", "first"⟩) := by
    intro other member
    rw [List.mem_singleton.mp member]
    exact .of_rows (fun row listed row' listed' => (apart row listed row' listed').1)
      fun row listed row' listed' => (apart row listed row' listed').2
  obtain ⟨⟨before, after, completed, same⟩, counted⟩ :=
    resubmission_changes_nothing retryDeployment retryWorld retryWorld_reached []
      [⟨2, "originals", "other"⟩] ⟨1, "originals", "first"⟩ ⟨3, "originals", "second"⟩
      ⟨⟨[], by decide +kernel⟩, rfl, consistent_of_distinct distinct, spared⟩
  exact ⟨⟨before, after, congrArg (List.map ReportSource.id) completed.after, same⟩, counted⟩

end StockImport.Worker
