import StockImport.Db.Overlay
import StockImport.Worker.ClosedForm
import StockImport.Worker.Queue

/-!
# The inventory of any run

Any number of workers whose lock connections drop at any moment, any failure, and
commits whose answer is lost.  What a run does to the row of a report is never
undone, and only the apply of a report in `processing` changes the inventory; each
time it lays the rows of one whole file over it.
-/

set_option autoImplicit false

namespace StockImport.Worker

open PyText Csv Db Tables Transactional Snapshots

/-! ## The row of a report -/

/-- The columns that the registration has set. -/
def Report.registration (report : Report) : Registration where
  id := report.id
  originalFilename := report.originalFilename
  objectBucket := report.objectBucket
  objectKey := report.objectKey
  sizeBytes := report.sizeBytes
  checksumSha256 := report.checksumSha256
  createdAt := report.createdAt

/-- One step on the row of a report; a row that has reached its end does not move. -/
structure RowMoves (report report' : Report) : Prop where
  registration : Report.registration report' = Report.registration report
  status : report' = report ∨ MayBecome report.status report'.status

theorem RowMoves.refl (report : Report) : RowMoves report report := ⟨rfl, Or.inl rfl⟩

/-- What a transaction does to the rows of the reports and to the inventory. -/
inductive RowEffect (s s' : Ledger) : Prop
  | moved (id : Nat) (set : Report → Report)
      (rows : ∀ other, s'.db.reports.find other =
        if other = id then (s.db.reports.find id).map set else s.db.reports.find other)
      (moves : ∀ report, s.db.reports.find id = some report → RowMoves report (set report))
      (notCompleted : ∀ report, s.db.reports.find id = some report →
        (set report).status = .completed → set report = report)
      (completions : s'.completions = s.completions)
      (inventory : s'.db.inventory = s.db.inventory)
  | applied (report : Report) (counters : Counters)
      (found : s.db.reports.find report.id = some report)
      (ready : readyForApply s.db report = true)
      (statements : applyStatements s.db.inventory (s.db.stagedRows report.id) s.db.now =
        some (s'.db.inventory, counters))
      (rows : ∀ other, s'.db.reports.find other =
        if other = report.id then some (report.complete s.db.now counters)
        else s.db.reports.find other)
      (completions : s'.completions = s.completions ++ [reportSource report])

section Rows

variable {s : Ledger} {db : Database} {id : Nat} {staged : List ValidatedRow}
  {errors : List ReportError}

theorem RowEffect.of_tables
    (changes : Changes s.db db id ⟨s.db.reports.find id, staged, errors⟩ s.db.inventory) :
    RowEffect s { s with db := db } := by
  refine .moved id (fun report => report) ?_ (fun report _ => .refl report) (fun _ _ _ => rfl) rfl
    changes.inventory
  intro other
  rw [Option.map_id']
  exact Changes.rows changes other

theorem RowEffect.of_processing {set : Report → Report}
    (changes : Changes s.db db id
      ⟨(s.db.reports.find id).map (whileProcessing set), staged, errors⟩ s.db.inventory)
    (registration : ∀ report, Report.registration (set report) = Report.registration report)
    (status : ∀ report, report.status = .processing →
      (set report).status = .processing ∨ (set report).status = .failed) :
    RowEffect s { s with db := db } := by
  refine .moved id (whileProcessing set) (Changes.rows changes) ?_ ?_ rfl changes.inventory
  · intro report _
    unfold whileProcessing
    split
    · next processing =>
        refine ⟨registration report, Or.inr ?_⟩
        rw [processing]
        rcases status report processing with same | failed
        · simp [MayBecome, same]
        · simp [MayBecome, failed]
    · exact .refl report
  · intro report _ completed
    unfold whileProcessing at completed ⊢
    split at completed
    · next processing =>
        rcases status report processing with same | failed
        · rw [same] at completed
          cases completed
        · rw [failed] at completed
          cases completed
    · next other => rw [if_neg other]

end Rows

theorem exec_rowEffect {t : Transaction} {reply : t.Reply} {s s' : Ledger}
    (executed : t.exec s = .ok (reply, s')) : RowEffect s s' := by
  cases t with
  | claim =>
      cases executed
      have unchanged : Changes s.db s.db 0
          ⟨s.db.reports.find 0, s.db.stagedRows 0, s.db.errorsOf 0⟩ s.db.inventory :=
        ⟨rfl, fun _ _ => rfl, rfl⟩
      have same : RowEffect s s := .of_tables unchanged
      rcases claim_cases s.db with
        ⟨claimed, _⟩ | ⟨report, found, isOpen, ⟨claimed, _⟩ | ⟨db', claimed, _, changes⟩⟩
      · rw [claimed]
        exact same
      · rw [claimed]
        exact same
      · rw [claimed]
        refine .moved report.id (Report.claim s.db.now) ?_ ?_ ?_ rfl changes.inventory
        · intro other
          rw [found]
          exact Changes.rows changes other
        · intro other foundOther
          cases found.symm.trans foundOther
          refine ⟨rfl, Or.inr ?_⟩
          cases status : report.status with
          | pending => rfl
          | processing => exact ReportStatus.noConfusion
          | completed | failed => simp [Report.isOpen, status] at isOpen
        · intro _ _ completed
          cases completed
  | errorCount id =>
      cases executed
      have unchanged : Changes s.db s.db id
          ⟨s.db.reports.find id, s.db.stagedRows id, s.db.errorsOf id⟩ s.db.inventory :=
        ⟨rfl, fun _ _ => rfl, rfl⟩
      exact .of_tables unchanged
  | writeStagingBatch id batch =>
      obtain ⟨db, written, rfl⟩ := store_ok executed
      exact .of_tables (writeStagingBatch_changes written)
  | writeErrorBatch id batch =>
      obtain ⟨db, written, rfl⟩ := store_ok executed
      obtain ⟨added, _, changes⟩ := writeErrorBatch_changes written
      exact .of_tables changes
  | insertDuplicateErrors id rawValueChars =>
      obtain ⟨db, written, rfl⟩ := store_ok executed
      obtain ⟨added, _, changes⟩ := insertErrors_changes written
      exact .of_tables changes
  | finalizeValidationFailure id rowCount count =>
      cases executed
      exact .of_processing (finalizeValidationFailure_changes id rowCount count s.db)
        (fun _ => rfl) (fun _ _ => Or.inr rfl)
  | markValidated id rowCount =>
      cases executed
      exact .of_processing (markValidated_changes id rowCount s.db)
        (fun _ => rfl) (fun _ processing => Or.inl processing)
  | markProcessingFailed id =>
      obtain ⟨db, written, rfl⟩ := store_ok executed
      obtain ⟨added, changes⟩ := markFailed_changes written
      exact .of_processing changes (fun _ => rfl) (fun _ _ => Or.inr rfl)
  | markApplyFailed id =>
      obtain ⟨db, written, rfl⟩ := store_ok executed
      obtain ⟨added, changes⟩ := markFailed_changes written
      exact .of_processing changes (fun _ => rfl) (fun _ _ => Or.inr rfl)
  | apply id =>
      obtain ⟨db, ran, rfl⟩ := exec_apply executed
      obtain ⟨report, inventory, counters, found, ready, statements, _, changes⟩ :=
        applyReport_changes ran
      have key : report.id = id := ((Table.find_eq_some _).mp found).2
      subst key
      refine .applied report counters found ready (changes.inventory ▸ statements)
        (Changes.rows changes) ?_
      rw [found]
      rfl

theorem RowEffect.rowMoves {s s' : Ledger} (effect : RowEffect s s') {id : Nat} {report : Report}
    (found : s.db.reports.find id = some report) :
    ∃ report', s'.db.reports.find id = some report' ∧ RowMoves report report' := by
  cases effect with
  | moved other set rows moves _ _ _ =>
      by_cases same : id = other
      · subst same
        exact ⟨set report, by rw [rows, if_pos rfl, found]; rfl, moves report found⟩
      · exact ⟨report, by rw [rows, if_neg same, found], .refl report⟩
  | applied other counters foundOther ready _ rows _ =>
      by_cases same : id = other.id
      · subst same
        cases foundOther.symm.trans found
        refine ⟨report.complete s.db.now counters, by rw [rows, if_pos rfl], rfl, Or.inr ?_⟩
        rw [(readyForApply_cases ready).1]
        exact ReportStatus.noConfusion
      · exact ⟨report, by rw [rows, if_neg same, found], .refl report⟩

/-- Other parties leave every row as it is and add pending ones. -/
structure Joins (s s' : Ledger) : Prop where
  kept : ∀ id report, s.db.reports.find id = some report → s'.db.reports.find id = some report
  new : ∀ id report, s'.db.reports.find id = some report →
    s.db.reports.find id = some report ∨ report.status = .pending
  completions : s'.completions = s.completions
  inventory : s'.db.inventory = s.db.inventory

theorem environment_joins {deployment : Deployment} {e : Environment} {s s' : Ledger}
    (happened : (service deployment).environment e s = some s') : Joins s s' := by
  simp only [service, Option.map_eq_some_iff] at happened
  obtain ⟨db, stepped, rfl⟩ := happened
  obtain ⟨inventory, same | ⟨registration, fresh, changes⟩⟩ := Environment.step_cases stepped
  · have rows : ∀ id, db.reports.find id = s.db.reports.find id :=
      fun id => congrArg ReportData.report (same id)
    exact ⟨fun id report found => (rows id).trans found,
      fun id report found => Or.inl ((rows id).symm.trans found), rfl, inventory⟩
  · have rows := Changes.rows changes
    refine ⟨?_, ?_, rfl, inventory⟩
    · intro id report found
      rw [rows, if_neg, found]
      rintro rfl
      cases fresh.symm.trans found
    · intro id report found
      rw [rows] at found
      split at found
      · cases found
        exact Or.inr rfl
      · exact Or.inl found

/-- A row after one step of a run. -/
theorem step_rowMoves {deployment : Deployment} {world next : ServiceWorld}
    {action : ServiceAction deployment} {id : Nat} {report : Report}
    (stepped : (service deployment).step world action = some next)
    (found : world.shared.db.reports.find id = some report) :
    ∃ report', next.shared.db.reports.find id = some report' ∧ RowMoves report report' := by
  rcases step_shared stepped with ⟨same, _⟩ | ⟨e, _, happened, _⟩ |
    ⟨_, _, _, _, t, reply, _, _, _, executed, _⟩
  · exact ⟨report, by rw [same, found], .refl report⟩
  · exact ⟨report, (environment_joins happened).kept id report found, .refl report⟩
  · exact (exec_rowEffect executed).rowMoves found

/-! ## Every record of a file -/

/-- The file has a valid row for each of its data records. -/
def WholeFile (deployment : Deployment) (source : ReportSource) : Prop :=
  0 < (dataRecords deployment.limits (deployment.file source)).length ∧
    (deployment.fileRows source).map ValidatedRow.lineNumber =
      List.range' 2 (dataRecords deployment.limits (deployment.file source)).length

section Whole

variable {deployment : Deployment}

/-- An apply that commits has read the rows of the whole file, in some order. -/
theorem OpenSound.wholeFile {s : Ledger} {report : Report} (sound : OpenSound deployment s)
    (found : s.db.reports.find report.id = some report) (ready : readyForApply s.db report = true) :
    WholeFile deployment (reportSource report) ∧
      ∀ row, row ∈ s.db.stagedRows report.id ↔ row ∈ deployment.fileRows (reportSource report) := by
  obtain ⟨status, _, positive, count⟩ := readyForApply_cases ready
  have own := sound.reports report.id
  simp only [OpenReport, Database.dataOf, found] at own
  obtain ⟨inFile, counted⟩ := own
  have result : (deployment.fileRun (reportSource report)).result =
      .ok ⟨report.rowCount, true⟩ := by
    rcases counted status with none | whole
    · omega
    · exact whole
  obtain ⟨perRecord, final, accounts⟩ :=
    validateBytes_accounts deployment.limits (deployment.file (reportSource report))
  obtain ⟨consumed, whole, _⟩ := accounts.summary _ result
  have records := consumed.trans (whole rfl)
  dsimp only at consumed records
  have ordered : ((deployment.fileRows (reportSource report)).map ValidatedRow.lineNumber).Sublist
      (List.range' 2 report.rowCount) := consumed ▸ accounts.lines
  -- as many distinct lines as there are records: none is missing
  have enough : (List.range' 2 report.rowCount).length ≤
      ((deployment.fileRows (reportSource report)).map ValidatedRow.lineNumber).length := by
    have staged := List.subperm_of_subset (stagedRows_lines s.db report.id)
      (List.map_subset ValidatedRow.lineNumber inFile)
    have fewer := staged.length_le
    rw [List.length_map, count] at fewer
    rw [List.length_range']
    exact fewer
  have lines := ordered.eq_of_length_le enough
  refine ⟨⟨records ▸ positive, records ▸ lines⟩, fun row => ⟨fun member => inFile row member, ?_⟩⟩
  intro member
  have all := (List.subperm_of_subset (stagedRows_lines s.db report.id)
    (List.map_subset ValidatedRow.lineNumber inFile)).perm_of_length_le (by
      rw [lines, List.length_range', List.length_map, count])
  obtain ⟨staged, inStaging, same⟩ :=
    List.mem_map.mp (all.symm.subset (List.mem_map_of_mem member))
  have equal : staged = row := List.inj_on_of_nodup_map
    (fileRows_lines deployment (reportSource report)) (inFile staged inStaging) member same
  exact equal ▸ inStaging

end Whole

/-! ## The inventory of any run -/

/-- The balances that the apply of a report has created. -/
def createdBy (db : Database) (source : ReportSource) : Nat :=
  ((db.reports.find source.id).map Report.stocksCreated).getD 0

/-- The inventory is what the completed reports, each a whole file, leave when they are laid
over each other in their order. -/
structure Replayed (deployment : Deployment) (s : Ledger) : Prop where
  completed : ∀ source, source ∈ s.completions ↔ ∃ report,
    s.db.reports.find source.id = some report ∧ reportSource report = source ∧
      report.status = .completed
  whole : ∀ source ∈ s.completions, WholeFile deployment source
  replays : snapshotLayout.Replays (s.completions.map deployment.fileRows) s.db.inventory.view
  created : (s.completions.map (createdBy s.db)).sum = s.db.inventory.balances.rows.length

section Replayed

variable {deployment : Deployment} {s s' : Ledger}

theorem Replayed.empty (deployment : Deployment) : Replayed deployment .empty where
  completed source := by
    constructor
    · intro member
      cases member
    · rintro ⟨report, found, _⟩
      cases found
  whole source member := by cases member
  replays := .none
  created := rfl

theorem completed_rows {source : ReportSource} (replayed : Replayed deployment s)
    (member : source ∈ s.completions) : ∃ report, s.db.reports.find source.id = some report ∧
      reportSource report = source ∧ report.Terminal := by
  obtain ⟨report, found, same, status⟩ := (replayed.completed source).mp member
  exact ⟨report, found, same, Or.inl status⟩

theorem RowMoves.terminal {report report' : Report} (moves : RowMoves report report')
    (terminal : report.Terminal) : report' = report := by
  rcases moves.status with same | becomes
  · exact same
  · rcases terminal with completed | failed
    · rw [completed] at becomes
      exact becomes.elim
    · rw [failed] at becomes
      exact becomes.elim

/-- A step after which the same reports are completed, with the same rows. -/
theorem Replayed.keep (replayed : Replayed deployment s)
    (completions : s'.completions = s.completions)
    (inventory : s'.db.inventory = s.db.inventory)
    (kept : ∀ id report, s.db.reports.find id = some report → report.Terminal →
      s'.db.reports.find id = some report)
    (old : ∀ id report, s'.db.reports.find id = some report → report.status = .completed →
      s.db.reports.find id = some report) : Replayed deployment s' where
  completed source := by
    rw [completions, replayed.completed]
    refine exists_congr fun report => ⟨?_, ?_⟩
    · rintro ⟨found, same, status⟩
      exact ⟨kept _ report found (Or.inl status), same, status⟩
    · rintro ⟨found, same, status⟩
      exact ⟨old _ report found status, same, status⟩
  whole source member := replayed.whole source (completions ▸ member)
  replays := by
    rw [completions, inventory]
    exact replayed.replays
  created := by
    rw [completions, inventory, ← replayed.created]
    refine congrArg List.sum (List.map_congr_left fun source member => ?_)
    obtain ⟨report, found, _, terminal⟩ := completed_rows replayed member
    rw [createdBy, createdBy, found, kept _ report found terminal]

theorem Replayed.joins (replayed : Replayed deployment s) (joins : Joins s s') :
    Replayed deployment s' := by
  refine replayed.keep joins.completions joins.inventory
    (fun id report found _ => joins.kept id report found) ?_
  intro id report found status
  refine (joins.new id report found).resolve_right fun pending => ?_
  rw [status] at pending
  cases pending

/-- The apply of a report in `processing`. -/
theorem Replayed.apply {report : Report} {counters : Counters} (sound : OpenSound deployment s)
    (replayed : Replayed deployment s) (found : s.db.reports.find report.id = some report)
    (ready : readyForApply s.db report = true)
    (statements : applyStatements s.db.inventory (s.db.stagedRows report.id) s.db.now =
      some (s'.db.inventory, counters))
    (rows : ∀ other, s'.db.reports.find other =
      if other = report.id then some (report.complete s.db.now counters)
      else s.db.reports.find other)
    (completions : s'.completions = s.completions ++ [reportSource report]) :
    Replayed deployment s' := by
  obtain ⟨whole, same⟩ := sound.wholeFile found ready
  have processing := (readyForApply_cases ready).1
  have mine : s'.db.reports.find report.id = some (report.complete s.db.now counters) := by
    rw [rows, if_pos rfl]
  -- the completed reports are others
  have apart : ∀ source ∈ s.completions, source.id ≠ report.id := by
    intro source member equal
    obtain ⟨other, foundOther, _, status⟩ := (replayed.completed source).mp member
    rw [equal, found] at foundOther
    cases foundOther
    rw [processing] at status
    cases status
  have others : ∀ source : ReportSource, source.id ≠ report.id →
      s'.db.reports.find source.id = s.db.reports.find source.id :=
    fun source different => by rw [rows, if_neg different]
  refine ⟨?_, ?_, ?_, ?_⟩
  · intro source
    rw [completions, List.mem_append, List.mem_singleton]
    constructor
    · rintro (old | rfl)
      · rw [others source (apart source old)]
        exact (replayed.completed source).mp old
      · exact ⟨_, mine, rfl, rfl⟩
    · rintro ⟨other, foundOther, equal, status⟩
      by_cases isMine : source.id = report.id
      · rw [isMine, mine] at foundOther
        cases foundOther
        exact Or.inr equal.symm
      · rw [others source isMine] at foundOther
        exact Or.inl ((replayed.completed source).mpr ⟨other, foundOther, equal, status⟩)
  · intro source member
    rw [completions, List.mem_append, List.mem_singleton] at member
    rcases member with old | rfl
    · exact replayed.whole source old
    · exact whole
  · rw [completions, List.map_append]
    have lines : ((s.db.stagedRows report.id).map snapshotLayout.number).Nodup :=
      stagedRows_lines s.db report.id
    exact .snoc replayed.replays ((applyStatements_overlays statements).congr same
      fun row member row' member' => List.inj_on_of_nodup_map lines member member')
  · have old : s.completions.map (createdBy s'.db) = s.completions.map (createdBy s.db) := by
      refine List.map_congr_left fun source member => ?_
      rw [createdBy, createdBy, others source (apart source member)]
    have new : createdBy s'.db (reportSource report) = counters.stocksCreated := by
      rw [createdBy]
      simp only [reportSource, mine]
      rfl
    rw [completions, List.map_append, List.sum_append, old, replayed.created,
      applyStatements_created statements]
    simp [new]

theorem RowEffect.replayed (effect : RowEffect s s') (sound : OpenSound deployment s)
    (replayed : Replayed deployment s) : Replayed deployment s' := by
  cases effect with
  | moved id set rows moves notCompleted completions inventory =>
      have kept : ∀ other report, s.db.reports.find other = some report → report.Terminal →
          s'.db.reports.find other = some report := by
        intro other report found terminal
        rw [rows]
        split
        · next same =>
            subst same
            rw [found, Option.map_some, (moves report found).terminal terminal]
        · exact found
      refine replayed.keep completions inventory kept ?_
      intro other report found status
      rw [rows] at found
      split at found
      · next same =>
          subst same
          simp only [Option.map_eq_some_iff] at found
          obtain ⟨before, foundBefore, rfl⟩ := found
          rw [notCompleted before foundBefore status, foundBefore]
      · exact found
  | applied report counters found ready statements rows completions =>
      exact replayed.apply sound found ready statements rows completions

theorem replayed_guarantees (deployment : Deployment) :
    Guarantees (service deployment) (openSpec deployment)
      (fun s => OpenSound deployment s ∧ Replayed deployment s) (fun _ _ _ => True) where
  exec := rfl
  loses := trivial
  environment _ _ _ sound happened :=
    ⟨⟨(environment_open sound.1 happened).1, sound.2.joins (environment_joins happened)⟩,
      (environment_open sound.1 happened).2⟩
  transaction _ _ _ _ _ sound pre executed :=
    ⟨(exec_effect executed).sound sound.1 pre, (exec_rowEffect executed).replayed sound.1 sound.2⟩
  starts delivery s _ := wp_process_open delivery s

/-- Any run: any interleaving, any failure, and answers that are lost. -/
abbrev AnyRun (deployment : Deployment) (world : ServiceWorld) : Prop :=
  Reachable (service deployment) (fun _ _ => True) ServiceWorld.empty world

theorem AnyRun.replayed {world : ServiceWorld} (run : AnyRun deployment world) :
    OpenSound deployment world.shared ∧ Replayed deployment world.shared := by
  have permitted : Reachable (service deployment)
      (fun world action => Permits (openSpec deployment) world action) ServiceWorld.empty world :=
    run.weaken fun world action _ _ =>
      permits_any (fun _ _ => trivial) (fun _ _ => trivial) (fun _ _ => trivial) world action
  exact (interleaved_sound (replayed_guarantees deployment)
    (fun _ _ _ _ executed => (exec_effect executed).keepsSources) ServiceWorld.empty_idle
    ⟨.empty deployment, .empty deployment⟩ permitted).1

end Replayed

section ClosedForm

variable {deployment : Deployment} {completed : List ReportSource} {inventory : Inventory}

/-- The closed form of files that may repeat a pair. -/
theorem closedForm_of_replays
    (replays : snapshotLayout.Replays (completed.map deployment.fileRows) inventory.view) :
    ClosedForm deployment completed inventory := by
  refine ⟨balances_coded inventory, ?_, ?_, ?_, ?_⟩
  · intro warehouse sku
    have present := replays.present warehouse sku
    simp only [Inventory.view, Inventory.quantityOf, Option.map_eq_some_iff, List.mem_map,
      exists_exists_and_eq_and] at present
    constructor
    · rintro ⟨balance, found⟩
      obtain ⟨source, member, row, inFile, lists⟩ := present.mp ⟨_, balance, found, rfl⟩
      exact ⟨source, member, row, inFile, lists⟩
    · rintro ⟨source, member, row, inFile, lists⟩
      obtain ⟨_, balance, found, _⟩ := present.mpr ⟨source, member, row, inFile, lists⟩
      exact ⟨balance, found⟩
  · intro warehouse sku balance found
    have quantity : inventory.view.quantity warehouse sku = some balance.quantity := by
      simp [Inventory.view, Inventory.quantityOf, found]
    obtain ⟨rows, last, decides⟩ := replays.quantity quantity
    obtain ⟨source, lastSource, rfl⟩ := lastMentioning_iff.mp last
    refine ⟨source, lastSource, ?_⟩
    rcases decides with ⟨row, inFile, lists, same⟩ | ⟨none, zero⟩
    · exact Or.inl ⟨row, ⟨inFile, lists⟩, same⟩
    · exact Or.inr ⟨fun row listed => none row listed.1 listed.2, zero⟩
  · intro warehouse name
    have names : inventory.warehouses.nameOf warehouse =
        (snapshotLayout.applyAll (completed.map deployment.fileRows)).placeName warehouse :=
      congrFun replays.names.1 warehouse
    rw [names, Layout.placeName_applyAll]
    exact nameOfLast_iff fun rows => lastMentioning_iff
  · intro sku name
    have names : inventory.products.nameOf sku =
        (snapshotLayout.applyAll (completed.map deployment.fileRows)).itemName sku :=
      congrFun replays.names.2 sku
    rw [names, Layout.itemName_applyAll]
    exact nameOfLast_iff fun rows => lastMentioningItem_iff

end ClosedForm

/-- The completions are the completed reports, each applied once, in the order of these
applies, and each with a valid row for every record of its file. -/
structure AppliedInOrder (deployment : Deployment) (world : ServiceWorld) : Prop where
  once : (world.shared.completions.map ReportSource.id).Nodup
  completed : ∀ source, source ∈ world.shared.completions ↔
    ∃ report ∈ world.shared.db.reports.rows,
      reportSource report = source ∧ report.status = .completed
  order : world.shared.completions.map ReportSource.id = appliedIds world.history
  whole : ∀ source ∈ world.shared.completions, WholeFile deployment source

/-- However workers overlap and whatever fails, the inventory is the closed form of the
completed reports in the order of their applies. -/
theorem overlapping_inventory (deployment : Deployment) (world : ServiceWorld)
    (run : AnyRun deployment world) :
    AppliedInOrder deployment world ∧
      ClosedForm deployment world.shared.completions world.shared.db.inventory := by
  obtain ⟨sound, replayed⟩ := run.replayed
  refine ⟨⟨sound.once, ?_, completions_history run, replayed.whole⟩,
    closedForm_of_replays replayed.replays⟩
  intro source
  rw [replayed.completed]
  constructor
  · rintro ⟨report, found, same, status⟩
    exact ⟨report, ((Table.find_eq_some _).mp found).1, same, status⟩
  · rintro ⟨report, member, rfl, status⟩
    exact ⟨report, (Table.find_eq_some _).mpr ⟨member, rfl⟩, rfl, status⟩

/-- Of the two workers in front of the same apply, worker 1 commits it without hearing of
it, and worker 0 tries as well. -/
def unheardActions : List (ServiceAction sampleDeployment) :=
  contestedActions ++ [.run 1 (.unknown .sqlAlchemyError), .run 0 .none]

theorem unheardActions_run :
    ((service sampleDeployment).runs ServiceWorld.empty unheardActions).isSome = true := by
  decide +kernel

def unheardWorld : ServiceWorld :=
  ((service sampleDeployment).runs ServiceWorld.empty unheardActions).get unheardActions_run

theorem unheardWorld_reached : AnyRun sampleDeployment unheardWorld :=
  reachable_runs unheardActions _ _ (fun _ _ _ => trivial) .start
    (Option.some_get unheardActions_run).symm

theorem overlapping_inventory_unheardWorld :
    appliedIds unheardWorld.history = [1] ∧
      unheardWorld.shared.db.inventory.quantityOf (ofString "W") (ofString "T") ≠ none ∧
      ClosedForm sampleDeployment unheardWorld.shared.completions
        unheardWorld.shared.db.inventory :=
  ⟨by decide +kernel, by decide +kernel,
    (overlapping_inventory sampleDeployment unheardWorld unheardWorld_reached).2⟩

/-! ## Counters and rows -/

def completedReports (db : Database) : List Report :=
  db.reports.rows.filter fun report => report.status = .completed

theorem completedReports_perm {deployment : Deployment} {s : Ledger}
    (sound : OpenSound deployment s) (replayed : Replayed deployment s) :
    ((completedReports s.db).map reportSource).Perm s.completions := by
  have sources : ((completedReports s.db).map reportSource).Nodup := by
    refine List.Nodup.of_map ReportSource.id ?_
    rw [List.map_map]
    exact s.db.reports.unique.sublist (List.filter_sublist.map Report.id)
  refine (List.perm_ext_iff_of_nodup sources (sound.once.of_map _)).mpr fun source => ?_
  rw [replayed.completed]
  simp only [completedReports, List.mem_map, List.mem_filter, decide_eq_true_eq]
  constructor
  · rintro ⟨report, ⟨member, status⟩, rfl⟩
    exact ⟨report, (Table.find_eq_some _).mpr ⟨member, rfl⟩, rfl, status⟩
  · rintro ⟨report, found, same, status⟩
    exact ⟨report, ⟨((Table.find_eq_some _).mp found).1, status⟩, same⟩

/-- The balances reconcile with the reports in every run: there are as many as all
completed reports together say they have created. -/
theorem stocks_created_reconcile (deployment : Deployment) (world : ServiceWorld)
    (run : AnyRun deployment world) :
    ((completedReports world.shared.db).map Report.stocksCreated).sum =
      world.shared.db.inventory.balances.rows.length := by
  obtain ⟨sound, replayed⟩ := run.replayed
  rw [← replayed.created,
    ← ((completedReports_perm sound replayed).map (createdBy world.shared.db)).sum_nat, List.map_map]
  refine congrArg List.sum (List.map_congr_left fun report member => ?_)
  have found : world.shared.db.reports.find report.id = some report :=
    (Table.find_eq_some _).mpr ⟨(List.mem_filter.mp member).1, rfl⟩
  simp [createdBy, reportSource, found]

theorem stocks_created_reconcile_unheardWorld :
    ((completedReports unheardWorld.shared.db).map Report.stocksCreated).sum = 2 :=
  (stocks_created_reconcile sampleDeployment unheardWorld unheardWorld_reached).trans
    (by decide +kernel)

/-- The statuses that a report can still have. -/
def StatusLater : ReportStatus → ReportStatus → Prop
  | .pending, _ => True
  | .processing, later => later ≠ .pending
  | .completed, later => later = .completed
  | .failed, later => later = .failed

theorem StatusLater.of_rowMoves {first second third : Report}
    (earlier : StatusLater first.status second.status) (moves : RowMoves second third) :
    StatusLater first.status third.status := by
  rcases moves.status with rfl | becomes
  · exact earlier
  · cases status : first.status with
    | pending => trivial
    | processing =>
        rw [status] at earlier
        cases middle : second.status with
        | pending => exact absurd middle earlier
        | processing =>
            rw [middle] at becomes
            exact becomes
        | completed | failed =>
            rw [middle] at becomes
            exact becomes.elim
    | completed | failed =>
        rw [status] at earlier
        rw [earlier] at becomes
        exact becomes.elim

/-- In every run a report stays, keeps what was registered and moves forward only, one
status at each step; once it has ended, its row never changes again. -/
theorem report_row_final (deployment : Deployment) (world later : ServiceWorld)
    (report : Report) (member : report ∈ world.shared.db.reports.rows)
    (run : Reachable (service deployment) (fun _ _ => True) world later) :
    ∃ report' ∈ later.shared.db.reports.rows,
      Report.registration report' = Report.registration report ∧
      StatusLater report.status report'.status ∧ (report.Terminal → report' = report) ∧
      ∀ action next, (service deployment).step later action = some next →
        ∃ report'' ∈ next.shared.db.reports.rows, RowMoves report' report'' := by
  have found : world.shared.db.reports.find report.id = some report :=
    (Table.find_eq_some _).mpr ⟨member, rfl⟩
  have lasts : ∃ report', later.shared.db.reports.find report.id = some report' ∧
      Report.registration report' = Report.registration report ∧
      StatusLater report.status report'.status ∧ (report.Terminal → report' = report) := by
    induction run with
    | start =>
        refine ⟨report, found, rfl, ?_, fun _ => rfl⟩
        cases report.status with
        | pending => trivial
        | processing => exact ReportStatus.noConfusion
        | completed | failed => rfl
    | step action _ _ stepped ih =>
        obtain ⟨before, foundBefore, registration, status, final⟩ := ih
        obtain ⟨after, foundAfter, moves⟩ := step_rowMoves stepped foundBefore
        refine ⟨after, foundAfter, moves.registration.trans registration,
          status.of_rowMoves moves, fun terminal => ?_⟩
        have same := final terminal
        subst same
        exact moves.terminal terminal
  obtain ⟨report', found', registration, status, final⟩ := lasts
  refine ⟨report', ((Table.find_eq_some _).mp found').1, registration, status, final, ?_⟩
  intro action next stepped
  obtain ⟨report'', found'', moves⟩ := step_rowMoves stepped found'
  exact ⟨report'', ((Table.find_eq_some _).mp found'').1, moves⟩

/-- Worker 1, which has not heard of its commit, notes a failure on the completed report. -/
def notedActions : List (ServiceAction sampleDeployment) := [.run 1 .none, .run 1 .none]

theorem notedActions_run :
    ((service sampleDeployment).runs unheardWorld notedActions).isSome = true := by
  decide +kernel

def notedWorld : ServiceWorld :=
  ((service sampleDeployment).runs unheardWorld notedActions).get notedActions_run

theorem report_row_final_notedWorld : ∃ report ∈ unheardWorld.shared.db.reports.rows,
    notedWorld.shared.db.errorsOf report.id ≠ [] ∧
      ∃ report' ∈ notedWorld.shared.db.reports.rows, report' = report := by
  have completed : ∃ report ∈ unheardWorld.shared.db.reports.rows, report.status = .completed ∧
      notedWorld.shared.db.errorsOf report.id ≠ [] := by decide +kernel
  obtain ⟨report, member, status, noted⟩ := completed
  obtain ⟨report', member', _, _, final, _⟩ := report_row_final sampleDeployment unheardWorld
    notedWorld report member (reachable_runs notedActions _ _ (fun _ _ _ => trivial) .start
      (Option.some_get notedActions_run).symm)
  exact ⟨report, member, noted, report', member', final (Or.inl status)⟩

end StockImport.Worker
