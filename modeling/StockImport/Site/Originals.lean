import StockImport.Site.Service

/-!
# Originals

What the bucket holds under the key of a report is the whole source of the call that
registered it.  Once a call has returned its report, both stay.
-/

set_option autoImplicit false

namespace StockImport.Site

open Csv Db Tables Storage Worker Transactional

/-! ## Whole files -/

/-- A stored original is what its row says. -/
def Intact (s : Shared) (report : Report) : Prop :=
  ∀ body, s.storage.objects (report.objectBucket, report.objectKey) = some body →
    report.sizeBytes = body.length ∧ report.checksumSha256 = some (Sha256.hexdigest body)

/-- The call that registered the report, and what is left of its object. -/
structure CameFrom (service : ReportService) (s : Shared) (report : Report)
    (upload : OriginalUpload) : Prop where
  known : upload ∈ s.uploads
  registration : Report.registration report = upload.uploaded service
  complete : Complete service upload
  object : s.storage.objects (report.objectBucket, report.objectKey) = none ∨
    s.storage.objects (report.objectBucket, report.objectKey) = some (uploadBytes upload)

section Whole

variable {settings : WorkerSettings} {service : ReportService} {s : Shared}

theorem registrationObject_report (report : Report) :
    registrationObject (Report.registration report) = (report.objectBucket, report.objectKey) := rfl

theorem Sound.cameFrom (sound : Sound service s) {report : Report}
    (member : report ∈ s.ledger.db.reports.rows) :
    ∃ upload, CameFrom service s report upload := by
  obtain ⟨upload, known, same, complete⟩ := sound.rows _ (registered_iff.mpr ⟨report, member, rfl⟩)
  refine ⟨upload, known, same, complete, ?_⟩
  have object : (report.objectBucket, report.objectKey) = uploadObject service upload := by
    rw [← registrationObject_report, same]
    rfl
  rw [object]
  cases stored : s.storage.objects (uploadObject service upload) with
  | none => exact Or.inl rfl
  | some body =>
      obtain ⟨other, known', mine, bytes, _⟩ := sound.objects _ body stored
      cases sound.upload_eq known' known mine
      exact Or.inr (congrArg some bytes.symm)

theorem CameFrom.intact {report : Report} {upload : OriginalUpload}
    (from' : CameFrom service s report upload) : Intact s report := by
  intro body stored
  obtain gone | whole := from'.object
  · cases gone.symm.trans stored
  · cases whole.symm.trans stored
    exact ⟨congrArg Registration.sizeBytes from'.registration,
      congrArg Registration.checksumSha256 from'.registration⟩

/-- However the calls overlap, fail and crash, the bucket holds whole sources only, and a
report comes from one call whose source was complete and not too large: its object is the
source of this call, of the size and with the digest that the row says, or is gone. -/
theorem originals_whole (settings : WorkerSettings) (service : ReportService) (world : SiteWorld)
    (run : SiteRun settings service world) :
    (∀ object body, world.shared.shared.storage.objects object = some body →
      ∃ upload ∈ world.shared.shared.uploads, uploadObject service upload = object ∧
        uploadBytes upload = body ∧ Complete service upload) ∧
    ∀ report ∈ world.shared.shared.ledger.db.reports.rows,
      (∃ upload, CameFrom service world.shared.shared report upload) ∧
        Intact world.shared.shared report := by
  have sound := (site_sound run).stores
  refine ⟨sound.objects, fun report member => ?_⟩
  obtain ⟨upload, cameFrom⟩ := sound.cameFrom member
  exact ⟨⟨upload, cameFrom⟩, cameFrom.intact⟩

end Whole

/-- The object of the call that gave up is whole, and the only row is intact. -/
theorem originals_whole_overlapWorld :
    (∃ upload, overlapWorld.shared.shared.storage.objects
        ("stock-reports", "reports/second/original.csv") = some (uploadBytes upload)) ∧
      overlapWorld.shared.shared.ledger.db.reports.rows.length = 1 ∧
        ∀ report ∈ overlapWorld.shared.shared.ledger.db.reports.rows,
          Intact overlapWorld.shared.shared report := by
  obtain ⟨objects, rows⟩ :=
    originals_whole sampleSettings sampleService overlapWorld overlapWorld_reached
  obtain ⟨body, stored⟩ := Option.isSome_iff_exists.mp
    (by decide +kernel : (overlapWorld.shared.shared.storage.objects
      ("stock-reports", "reports/second/original.csv")).isSome = true)
  obtain ⟨upload, _, _, rfl, _⟩ := objects _ body stored
  exact ⟨⟨upload, stored⟩, by decide +kernel, fun report member => (rows report member).2⟩

/-! ## Returned reports -/

/-- The row and the object of a call that has no request left to make. -/
structure Settled (service : ReportService) (upload : OriginalUpload) (state : SiteState) : Prop where
  known : upload ∈ state.shared.uploads
  registered : Registered state.shared (upload.uploaded service)
  stored : state.shared.storage.objects (uploadObject service upload) = some (uploadBytes upload)
  quiet : ∀ job, state.requests upload.uuid = some job →
    ∃ result, job.thread.program = .done result

section Returned

variable {settings : WorkerSettings} {service : ReportService} {upload : OriginalUpload}
  {state state' : SiteState} {world next : SiteWorld}

theorem Settled.others (settled : Settled service upload state)
    (others : Others service upload state.shared state'.shared)
    (quiet : ∀ job, state'.requests upload.uuid = some job →
      ∃ result, job.thread.program = .done result) : Settled service upload state' where
  known := others.uploads _ settled.known
  registered := (others.rows _ rfl).mpr settled.registered
  stored := others.object.trans settled.stored
  quiet := quiet

theorem Settled.request {uuid : String} {fault : CallFault} {shared : Shared}
    {requests : Pool storesInterface OriginalUpload String Report}
    (settled : Settled service upload state) (sound : SiteSound service state)
    (ran : state.requests.run StoreRequest.exec uuid (requestFault fault) state.shared =
      some (shared, requests)) : Settled service upload ⟨shared, requests⟩ := by
  obtain ⟨job, thread, found, named, rfl, _, _, effect⟩ :=
    sound.calls.request (calls_separated service) (requestFault_raisable fault) ran
  have different : uuid ≠ upload.uuid := by
    intro mine
    obtain ⟨result, ended⟩ := settled.quiet job (mine ▸ found)
    exact Pool.run_done found ended ran
  refine settled.others ?_ fun job' found' => ?_
  · rcases effect with same | ⟨t, reply, asks, executed⟩
    · exact same ▸ Others.refl _
    · exact (Asks.acts asks.2.1 asks.2.2 executed).apart (named ▸ different)
  · dsimp only at found'
    rw [Function.update_of_ne (Ne.symm different)] at found'
    exact settled.quiet job' found'

theorem Settled.event {event : SiteEvent} (settled : Settled service upload state)
    (sound : SiteSound service state) (happened : siteEvent service event state = some state') :
    Settled service upload state' := by
  cases event with
  | tick =>
      cases happened
      exact settled.others ⟨rfl, fun _ opened => ⟨opened, rfl⟩, fun _ _ => Iff.rfl,
        fun _ known => known, id⟩ settled.quiet
  | receive other =>
      simp only [siteEvent] at happened
      split at happened
      · cases happened
      · next fresh =>
          cases happened
          have different : upload.uuid ≠ other.uuid := fun same =>
            fresh (List.any_eq_true.mpr ⟨upload, settled.known, beq_iff_eq.mpr same⟩)
          refine settled.others ⟨rfl, fun _ opened => ⟨opened, rfl⟩, fun _ _ => Iff.rfl,
            fun _ known => List.mem_append_left _ known, id⟩ fun job found => ?_
          dsimp only at found
          rw [Function.update_of_ne different] at found
          exact settled.quiet job found
  | request uuid fault =>
      simp only [siteEvent, Option.map_eq_some_iff] at happened
      obtain ⟨⟨shared, requests⟩, ran, rfl⟩ := happened
      exact settled.request sound ran
  | close uuid =>
      cases happened
      refine settled.others (Others.refl _) fun job found => ?_
      exact settled.quiet job (update_none_eq_some found).2

theorem Settled.transaction {t : siteInterface.Transaction} {reply : siteInterface.Reply t}
    (settled : Settled service upload state) (executed : siteExec t state = .ok (reply, state')) :
    Settled service upload state' := by
  cases t with
  | inl t =>
      simp only [siteExec] at executed
      split at executed
      · cases executed
      · next ledger done =>
          cases executed
          exact settled.others ⟨rfl, fun _ opened => ⟨opened, rfl⟩,
            fun registration _ => registered_moved (exec_rowEffect done) registration,
            fun _ known => known, id⟩ settled.quiet
  | inr source =>
      simp only [siteExec] at executed
      split at executed
      · cases executed
      · cases executed
        exact settled

theorem Settled.step {action : SiteAction} (settled : Settled service upload world.shared)
    (sound : SiteSound service world.shared)
    (stepped : (site settings service).step world action = some next) :
    Settled service upload next.shared := by
  rcases step_shared stepped with ⟨same, _⟩ | ⟨e, _, happened, _⟩ |
    ⟨_, _, _, _, t, reply, _, _, _, executed, _⟩
  · exact same ▸ settled
  · exact settled.event sound happened
  · exact settled.transaction executed

/-- A later state of the same run. -/
abbrev Later (settings : WorkerSettings) (service : ReportService) (world later : SiteWorld) : Prop :=
  Reachable (site settings service) (fun _ _ => True) world later

theorem Settled.later (settled : Settled service upload world.shared)
    (sound : SiteSound service world.shared) {later : SiteWorld}
    (run : Later settings service world later) :
    Settled service upload later.shared ∧ SiteSound service later.shared := by
  induction run with
  | start => exact ⟨settled, sound⟩
  | step action before admitted stepped ih =>
      obtain ⟨settled, sound⟩ := ih
      exact ⟨settled.step sound stepped, site_sound_step sound stepped⟩

/-- What a call has returned, before its job is closed. -/
theorem SiteSound.returned (sound : SiteSound service state) {uuid : String} {report : Report}
    {job : Job storesInterface OriginalUpload Report} (found : state.requests uuid = some job)
    (ended : job.thread.program = .done (.ok report)) :
    report = (job.task.uploaded service).report ∧ Complete service job.task ∧
      Settled service job.task state := by
  obtain ⟨named, _, holds⟩ := sound.calls uuid job found
  rw [ended] at holds
  obtain ⟨same, known, complete, registered, stored⟩ := holds _ (Others.refl _)
  refine ⟨same, complete, known, registered, stored, ?_⟩
  intro job' found'
  rw [named, found] at found'
  cases found'
  exact ⟨_, ended⟩

end Returned

/-- The cycles of worker 0 that validate and apply the first report. -/
def importActions : List SiteAction :=
  .acquire 0 sampleCutting :: List.replicate 19 (.run 0 .none) ++ [.leave 0] ++
    .acquire 0 sampleCutting :: List.replicate 13 (.run 0 .none) ++ [.leave 0]

theorem importActions_run : ((site sampleSettings sampleService).runs overlapWorld
    importActions).isSome = true := by
  decide +kernel

def importedWorld : SiteWorld :=
  ((site sampleSettings sampleService).runs overlapWorld importActions).get importActions_run

theorem importedWorld_later : Later sampleSettings sampleService overlapWorld importedWorld :=
  reachable_runs importActions _ _ (fun _ _ _ => trivial) .start
    (Option.some_get importActions_run).symm

end StockImport.Site
