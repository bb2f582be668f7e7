import StockImport.Site.Originals
import StockImport.Worker.Verdict

/-!
# From the upload to the inventory

The workers are written, and proved, for files that are there once and for all.  In the
service their files come and go in an object store; still every run of the service is a
run of the workers over what the calls were given.
-/

set_option autoImplicit false

namespace StockImport.Site

open Csv Db Tables Storage Worker Transactional

/-! ## The files of the workers -/

/-- What the call with that object was given. -/
def originalOf (service : ReportService) (uploads : List OriginalUpload) (bucket key : String) :
    Bytes :=
  match uploads.find? fun upload => uploadObject service upload = (bucket, key) with
  | none => []
  | some upload => uploadBytes upload

/-- The workers over the sources of these calls. -/
def fixedFiles (settings : WorkerSettings) (service : ReportService)
    (uploads : List OriginalUpload) : Deployment :=
  settings.deployment (originalOf service uploads)

section Files

variable {settings : WorkerSettings} {service : ReportService} {uploads : List OriginalUpload}

theorem originalOf_upload (distinct : (uploads.map OriginalUpload.uuid).Nodup)
    {upload : OriginalUpload} {bucket key : String} (known : upload ∈ uploads)
    (mine : uploadObject service upload = (bucket, key)) :
    originalOf service uploads bucket key = uploadBytes upload := by
  unfold originalOf
  cases found : uploads.find? fun upload => uploadObject service upload = (bucket, key) with
  | none =>
      have differs := List.find?_eq_none.mp found upload known
      simp [mine] at differs
  | some other =>
      have same : uploadObject service other = (bucket, key) := by
        simpa using List.find?_some found
      have equal : other = upload := List.inj_on_of_nodup_map distinct
        (List.mem_of_find?_eq_some found) known (objectKey_injective (same.trans mine.symm))
      exact congrArg uploadBytes equal

/-! ## The programs -/

theorem consumeRun_files (first second : String → String → Bytes) (reportId : Nat)
    (run : ValidationRun) : consumeRun (settings.deployment first) reportId run =
      consumeRun (settings.deployment second) reportId run := rfl

abbrev callOf (source : ReportSource) : ExternalCall := .downloadStream source.id

/-- A worker that downloads what the store holds, and one that knows its files. -/
theorem process_matches (cutting : Cutting) (files : String → String → Bytes) :
    (process settings cutting).Matches callOf
      (fun source => (settings.deployment files).file source)
      (Worker.process (settings.deployment files) (cutting.delivery (settings.deployment files))) := by
  have validates : ∀ source, (validate settings cutting source).Matches callOf
      (fun source => (settings.deployment files).file source)
      (Worker.validate (settings.deployment files) (cutting.delivery (settings.deployment files))
        source) := by
    intro source
    refine matches_bind (matches_embed _) fun _ => matches_extra source ?_
    rw [consumeRun_files _ files]
    exact matches_embed _
  refine matches_bind (matches_embed _) fun claimed => ?_
  match claimed with
  | none => exact .done _
  | some (source, true) => exact matches_embed _
  | some (source, false) => exact matches_handle (validates source) fun e => matches_embed _

/-! ## The systems -/

theorem exec_uploads {t : StoreRequest} {reply : t.Reply} {s s' : Shared}
    (executed : t.exec s = .ok (reply, s')) : s'.uploads = s.uploads := by
  cases t with
  | s3 request =>
      obtain ⟨_, _, rfl⟩ := exec_s3 executed
      rfl
  | insertReport registration =>
      obtain ⟨_, _, rfl⟩ := exec_insertReport executed
      rfl

/-- A request of a call is for the workers a registration, or nothing. -/
theorem exec_environment {t : StoreRequest} {reply : t.Reply} {s s' : Shared}
    (executed : t.exec s = .ok (reply, s')) (deployment : Deployment) :
    s'.ledger = s.ledger ∨
      ∃ e, (Worker.service deployment).environment e s.ledger = some s'.ledger := by
  cases t with
  | s3 request =>
      obtain ⟨_, _, rfl⟩ := exec_s3 executed
      exact Or.inl rfl
  | insertReport registration =>
      obtain ⟨db, inserted, rfl⟩ := exec_insertReport executed
      refine Or.inr ⟨.register registration, ?_⟩
      unfold Storage.insertReport at inserted
      split at inserted
      · simp only [Worker.service, inserted, Option.map_some]
      · cases inserted

theorem run_effect {pool pool' : Pool storesInterface OriginalUpload String Report} {uuid : String}
    {fault : Fault storesInterface} {s s' : Shared}
    (ran : pool.run StoreRequest.exec uuid fault s = some (s', pool')) :
    s' = s ∨ ∃ (t : StoreRequest) (reply : t.Reply), t.exec s = .ok (reply, s') := by
  obtain ⟨_, _, _, _, executed, _⟩ := Pool.run_some ran
  obtain ⟨_, _, ⟨same, _, _⟩ | ⟨t, reply, _, _, done, _⟩⟩ := Thread.run_cases executed
  · exact Or.inl same
  · exact Or.inr ⟨t, reply, done⟩

/-- The calls that the state knows are among these. -/
structure Agrees (service : ReportService) (uploads : List OriginalUpload) (state : SiteState) :
    Prop where
  sound : Sound service state.shared
  among : ∀ upload ∈ state.shared.uploads, upload ∈ uploads

theorem event_uploads {event : SiteEvent} {state state' : SiteState}
    (happened : siteEvent service event state = some state') :
    ∀ upload ∈ state.shared.uploads, upload ∈ state'.shared.uploads := by
  intro upload known
  cases event with
  | tick | close uuid =>
      cases happened
      exact known
  | receive other =>
      simp only [siteEvent] at happened
      split at happened
      · cases happened
      · cases happened
        exact List.mem_append_left _ known
  | request uuid fault =>
      simp only [siteEvent, Option.map_eq_some_iff] at happened
      obtain ⟨⟨shared, requests⟩, ran, rfl⟩ := happened
      rcases run_effect ran with rfl | ⟨t, reply, executed⟩
      · exact known
      · exact (exec_uploads executed).symm ▸ known

theorem siteExec_uploads {t : siteInterface.Transaction} {reply : siteInterface.Reply t}
    {state state' : SiteState} (executed : siteExec t state = .ok (reply, state')) :
    state'.shared.uploads = state.shared.uploads := by
  cases t with
  | inl t =>
      simp only [siteExec] at executed
      split at executed
      · cases executed
      · cases executed
        rfl
  | inr source =>
      simp only [siteExec] at executed
      split at executed
      · cases executed
      · cases executed
        rfl

theorem step_uploads {world next : SiteWorld} {action : SiteAction}
    (stepped : (site settings service).step world action = some next) :
    ∀ upload ∈ world.shared.shared.uploads, upload ∈ next.shared.shared.uploads := by
  intro upload known
  rcases step_shared stepped with ⟨same, _⟩ | ⟨e, _, happened, _⟩ |
    ⟨_, _, _, _, t, reply, _, _, _, executed, _⟩
  · exact same ▸ known
  · exact event_uploads happened upload known
  · exact (siteExec_uploads executed).symm ▸ known

theorem site_implements (settings : WorkerSettings) (service : ReportService)
    (distinct : (uploads.map OriginalUpload.uuid).Nodup) :
    Implements (site settings service) (Worker.service (fixedFiles settings service uploads)) callOf
      (fun source => (fixedFiles settings service uploads).file source)
      (fun state => state.shared.ledger) (Agrees service uploads) where
  commits t reply s s' executed := by
    simp only [site, siteExec] at executed
    split at executed
    · cases executed
    · next ledger done =>
        cases executed
        exact done
  refuses t e s executed := by
    simp only [site, siteExec] at executed
    split at executed
    · next refused =>
        cases executed
        exact refused
    · cases executed
  answers source reply s s' agrees executed := by
    simp only [site, siteExec] at executed
    split at executed
    · cases executed
    · next stored =>
        cases executed
        obtain ⟨upload, known, mine, rfl, _⟩ := agrees.sound.objects _ _ stored
        exact ⟨(originalOf_upload distinct (agrees.among upload known) mine).symm, rfl⟩
  environment event s s' happened := by
    cases event with
    | tick =>
        cases happened
        exact Or.inr ⟨.tick, rfl⟩
    | receive upload =>
        simp only [site, siteEvent] at happened
        split at happened
        · cases happened
        · cases happened
          exact Or.inl rfl
    | request uuid fault =>
        simp only [site, siteEvent, Option.map_eq_some_iff] at happened
        obtain ⟨⟨shared, requests⟩, ran, rfl⟩ := happened
        rcases run_effect ran with rfl | ⟨t, reply, executed⟩
        · exact Or.inl rfl
        · exact exec_environment executed _
    | close uuid =>
        cases happened
        exact Or.inl rfl
  starts cutting := ⟨cutting.delivery _, process_matches cutting _⟩

end Files

/-! ## The runs -/

/-- A transaction of a worker that raises has had no effect. -/
def AtomicWorkers (world : SiteWorld) : SiteAction → Prop
  | .run w (.unknown _) => ∀ thread t next, world.threads w = some thread →
      thread.program ≠ .transact (.inl t) next
  | _ => True

/-- The cycles are serialised by the advisory lock and no commit of theirs loses its answer;
for the calls of `register_original` neither holds. -/
def LockedSiteRun (settings : WorkerSettings) (service : ReportService) (world : SiteWorld) : Prop :=
  Reachable (site settings service)
    (fun world action => Serialised world action ∧ AtomicWorkers world action) SiteWorld.empty world

section Runs

variable {settings : WorkerSettings} {service : ReportService}

/-- The state of the workers alone. -/
abbrev WorkersOf (settings : WorkerSettings) (service : ReportService)
    (uploads : List OriginalUpload) (world : SiteWorld) (workers : ServiceWorld) : Prop :=
  Simulates callOf (fun source => (fixedFiles settings service uploads).file source)
    (fun state => state.shared.ledger) world workers

theorem simulated {allowed : SiteWorld → SiteAction → Prop} {world : SiteWorld}
    {allowed' : ServiceWorld →
      ServiceAction (fixedFiles settings service world.shared.shared.uploads) → Prop}
    (transfers : ∀ world₀ workers action action',
      WorkersOf settings service world.shared.shared.uploads world₀ workers →
        Follows action action' → allowed world₀ action → allowed' workers action')
    (run : Reachable (site settings service) allowed SiteWorld.empty world) :
    ∃ workers, Reachable (Worker.service (fixedFiles settings service world.shared.shared.uploads))
        allowed' ServiceWorld.empty workers ∧
      WorkersOf settings service world.shared.shared.uploads world workers := by
  have sound := (site_sound run).stores
  refine simulated_run (site_implements settings service sound.uuids) ?_ transfers
    ⟨rfl, fun _ => .none, rfl, rfl, rfl⟩ run ⟨sound, fun _ known => known⟩
  intro before next action reached stepped agrees
  exact ⟨(site_sound reached).stores,
    fun upload known => agrees.among upload (step_uploads stepped upload known)⟩

theorem follows_locked {uploads : List OriginalUpload} {world : SiteWorld} {workers : ServiceWorld}
    {action : SiteAction} {action' : ServiceAction (fixedFiles settings service uploads)}
    (same : WorkersOf settings service uploads world workers) (follows : Follows action action')
    (locked : Serialised world action ∧ AtomicWorkers world action) :
    Serialised workers action' ∧ Atomic workers action' := by
  obtain ⟨serialised, atomic⟩ := locked
  cases follows with
  | environment e e' => exact ⟨trivial, trivial⟩
  | acquire w start start' => exact ⟨fun w => same.idle (serialised w), trivial⟩
  | drop w => exact ⟨trivial, trivial⟩
  | leave w => exact ⟨trivial, trivial⟩
  | run w fault fault' unknown =>
      refine ⟨trivial, ?_⟩
      cases fault' with
      | none | fails e => trivial
      | unknown e =>
          cases unknown e rfl
          intro thread' t next' running' program'
          have related := same.threads w
          rw [running'] at related
          cases running : world.threads w with
          | none =>
              rw [running] at related
              cases related
          | some thread =>
              rw [running] at related
              cases related with
              | some matching =>
                  have program := matching.program
                  rw [program'] at program
                  generalize shape : thread.program = asks at program
                  cases program with
                  | transact t later => exact atomic thread t _ running shape

/-- Every run of the service, with any number of concurrent uploads and an object store that
loses and keeps answers, is a run of workers over fixed files, the sources of the calls; and
behind the lock it is one behind the lock. -/
theorem site_refines_workers (settings : WorkerSettings) (service : ReportService)
    (world : SiteWorld) :
    (SiteRun settings service world → ∃ workers,
      AnyRun (fixedFiles settings service world.shared.shared.uploads) workers ∧
        WorkersOf settings service world.shared.shared.uploads world workers) ∧
    (LockedSiteRun settings service world → ∃ workers,
      LockedRun (fixedFiles settings service world.shared.shared.uploads) workers ∧
        WorkersOf settings service world.shared.shared.uploads world workers) :=
  ⟨simulated fun _ _ _ _ _ _ _ => trivial,
    simulated fun _ _ _ _ same follows locked => follows_locked same follows locked⟩

/-! ## The end to end result -/

/-- The stocks are what the completed reports say, each counted once, and each is the whole
source of one call. -/
structure FromUploads (settings : WorkerSettings) (service : ReportService) (s : Shared) : Prop where
  inventory : ClosedForm (fixedFiles settings service s.uploads) s.ledger.completions
    s.ledger.db.inventory
  once : (s.ledger.completions.map ReportSource.id).Nodup
  completed : ∀ source, source ∈ s.ledger.completions ↔
    ∃ report ∈ s.ledger.db.reports.rows, reportSource report = source ∧ report.status = .completed
  uploaded : ∀ source ∈ s.ledger.completions, ∃ upload ∈ s.uploads,
    source = ⟨upload.reportId, service.bucket, upload.objectKey⟩ ∧ Complete service upload ∧
      (fixedFiles settings service s.uploads).file source = uploadBytes upload

theorem Sound.registered {s : Shared} (sound : Sound service s) (settings : WorkerSettings)
    {report : Report} (member : report ∈ s.ledger.db.reports.rows) : ∃ upload ∈ s.uploads,
      reportSource report = ⟨upload.reportId, service.bucket, upload.objectKey⟩ ∧
      Complete service upload ∧
        (fixedFiles settings service s.uploads).file (reportSource report) = uploadBytes upload := by
  obtain ⟨upload, known, same, complete⟩ := sound.rows _ (registered_iff.mpr ⟨report, member, rfl⟩)
  have source : reportSource report = ⟨upload.reportId, service.bucket, upload.objectKey⟩ :=
    congrArg (fun registration : Registration =>
      (⟨registration.id, registration.objectBucket, registration.objectKey⟩ : ReportSource)) same
  refine ⟨upload, known, source, complete, ?_⟩
  rw [source]
  exact originalOf_upload sound.uuids known rfl

/-- From the upload to the inventory: in every run the stocks are the closed form of the sources
of the completed reports; and behind the lock each report that is completed or failed by
validation says what the bytes say that its call was given. -/
theorem uploads_imported (settings : WorkerSettings) (service : ReportService)
    (world : SiteWorld) (run : SiteRun settings service world) :
    FromUploads settings service world.shared.shared ∧
    (LockedSiteRun settings service world →
      ∀ report ∈ world.shared.shared.ledger.db.reports.rows, Judged report →
        (∃ upload ∈ world.shared.shared.uploads, Complete service upload ∧
          (fixedFiles settings service world.shared.shared.uploads).file (reportSource report) =
            uploadBytes upload) ∧
        FollowsFile (fixedFiles settings service world.shared.shared.uploads)
          world.shared.shared.ledger report) := by
  have sound := (site_sound run).stores
  constructor
  · obtain ⟨workers, any, same⟩ := simulated (fun _ _ _ _ _ _ _ => trivial) run
    obtain ⟨opened, replayed⟩ := AnyRun.replayed any
    have ledger : workers.shared = world.shared.shared.ledger := same.shared
    rw [ledger] at opened replayed
    have completed : ∀ source, source ∈ world.shared.shared.ledger.completions ↔
        ∃ report ∈ world.shared.shared.ledger.db.reports.rows,
          reportSource report = source ∧ report.status = .completed := by
      intro source
      rw [replayed.completed]
      constructor
      · intro found
        obtain ⟨report, found, same, status⟩ := found
        exact ⟨report, ((Table.find_eq_some _).mp found).1, same, status⟩
      · intro stored
        obtain ⟨report, member, rfl, status⟩ := stored
        exact ⟨report, (Table.find_eq_some _).mpr ⟨member, rfl⟩, rfl, status⟩
    refine ⟨closedForm_of_replays replayed.replays, opened.once, completed, ?_⟩
    intro source member
    obtain ⟨report, stored, rfl, _⟩ := (completed source).mp member
    exact sound.registered settings stored
  · intro locked report member judged
    obtain ⟨workers, behind, same⟩ :=
      simulated (fun _ _ _ _ same follows locked => follows_locked same follows locked) locked
    have behind : LockedRun (fixedFiles settings service world.shared.shared.uploads) workers := behind
    have ledger : workers.shared = world.shared.shared.ledger := same.shared
    have found : workers.shared.db.reports.find report.id = some report := by
      rw [ledger]
      exact (Table.find_eq_some _).mpr ⟨member, rfl⟩
    obtain ⟨upload, known, _, complete, file⟩ := sound.registered settings member
    exact ⟨⟨upload, known, complete, file⟩,
      ledger ▸ (behind.verdict report found).follows behind.sound found judged⟩

end Runs

theorem importedWorld_locked : LockedSiteRun sampleSettings sampleService importedWorld := by
  have ran : (site sampleSettings sampleService).runs SiteWorld.empty
      (overlapActions ++ importActions) = some importedWorld :=
    System.runs_append (Option.some_get overlapActions_run).symm
      (Option.some_get importActions_run).symm
  refine solo_reachable 0 ?_ (overlapActions ++ importActions) SiteWorld.empty importedWorld ?_
    (fun _ _ => rfl) .start ran
  · intro world action own serialised
    refine ⟨serialised, ?_⟩
    cases action with
    | environment _ | acquire _ _ | drop _ | leave _ => trivial
    | run w fault =>
        cases fault with
        | none => trivial
        | fails e | unknown e => exact own.elim
  · simp [overlapActions, importActions, asks, Action.Solo]

theorem site_refines_workers_importedWorld : ∃ workers,
    LockedRun (fixedFiles sampleSettings sampleService importedWorld.shared.shared.uploads) workers ∧
      workers.shared.completions = [⟨1, "stock-reports", "reports/first/original.csv"⟩] := by
  obtain ⟨workers, behind, same⟩ :=
    (site_refines_workers sampleSettings sampleService importedWorld).2 importedWorld_locked
  have ledger : workers.shared = importedWorld.shared.shared.ledger := same.shared
  refine ⟨workers, behind, ?_⟩
  rw [ledger]
  decide +kernel

theorem uploads_imported_importedWorld :
    importedWorld.shared.shared.ledger.db.inventory.quantityOf (PyText.ofString "W")
        (PyText.ofString "T") ≠ none ∧
      FromUploads sampleSettings sampleService importedWorld.shared.shared ∧
      ∃ report ∈ importedWorld.shared.shared.ledger.db.reports.rows, Judged report ∧
        FollowsFile (fixedFiles sampleSettings sampleService importedWorld.shared.shared.uploads)
          importedWorld.shared.shared.ledger report := by
  obtain ⟨stocks, verdicts⟩ := uploads_imported sampleSettings sampleService importedWorld
    (overlapWorld_reached.trans importedWorld_later)
  obtain ⟨report, member, status⟩ : ∃ report ∈ importedWorld.shared.shared.ledger.db.reports.rows,
      report.status = .completed := by
    decide +kernel
  exact ⟨by decide +kernel, stocks, report, member, Or.inl status,
    (verdicts importedWorld_locked report member (Or.inl status)).2⟩

end StockImport.Site
