import StockImport.Library.Refinement
import StockImport.Site.Uploads

/-!
# The whole service

The workers, and any number of calls of `register_original`, over one database and one
object store.  A worker downloads what the object store holds at that moment.
-/

set_option autoImplicit false

namespace StockImport.Site

open Csv Db Tables Storage Worker Transactional

/-! ## The workers -/

structure WorkerSettings where
  limits : CsvLimits
  batchSize : Nat
  batchSize_pos : 0 < batchSize

/-- The workers of files that are given once and for all. -/
def WorkerSettings.deployment (settings : WorkerSettings) (original : String → String → Bytes) :
    Deployment where
  limits := settings.limits
  batchSize := settings.batchSize
  batchSize_pos := settings.batchSize_pos
  original := original

/-- How the storage and the stream buffers cut a file in one cycle, whatever the file. -/
structure Cutting where
  chunking : ∀ body : Bytes, Chunking body
  sizes : StreamSizes

def Cutting.delivery (cutting : Cutting) (deployment : Deployment) : Delivery deployment where
  chunking source := cutting.chunking (deployment.file source)
  sizes := cutting.sizes

/-- The transactions of the workers, and the download of a report's object. -/
abbrev siteInterface : Interface := workerInterface.extend ReportSource fun _ => Bytes

abbrev SiteProgram := Program siteInterface

def SiteProgram.of {α : Type} (p : WorkerProgram α) : SiteProgram α :=
  p.embed ReportSource fun _ => Bytes

def downloadStream (source : ReportSource) : SiteProgram Bytes :=
  Program.commit (i := siteInterface) (.inr source)

def validate (settings : WorkerSettings) (cutting : Cutting) (source : ReportSource) :
    SiteProgram WorkerCycleOutcome := do
  SiteProgram.of assertLockAlive
  let body ← downloadStream source
  SiteProgram.of <| consumeRun (settings.deployment fun _ _ => body) source.id <|
    validateCsvStream settings.limits cutting.sizes (cutting.chunking body).chunks

def processValidation (settings : WorkerSettings) (cutting : Cutting) (source : ReportSource) :
    SiteProgram WorkerCycleOutcome :=
  Program.handle (validate settings cutting source) fun e =>
    SiteProgram.of <| unlessLockLost (fun _ => do
      assertLockAlive
      inTransaction (.markProcessingFailed source.id)
      pure .processingFailed) e

def process (settings : WorkerSettings) (cutting : Cutting) : SiteProgram WorkerCycleOutcome := do
  match ← SiteProgram.of (inTransaction .claim) with
  | none => pure .noReport
  | some (source, true) => SiteProgram.of (processApply source.id)
  | some (source, false) => processValidation settings cutting source

/-! ## The system -/

/-- The two stores, and the calls that are running, each under its `uuid4()`. -/
structure SiteState where
  shared : Shared
  requests : Pool storesInterface OriginalUpload String Report

def siteExec : (t : siteInterface.Transaction) → SiteState →
    Except PyException (siteInterface.Reply t × SiteState)
  | .inl t, site =>
      match Transaction.exec t site.shared.ledger with
      | .error e => .error e
      | .ok (reply, ledger) =>
          .ok (reply, { site with shared := { site.shared with ledger := ledger } })
  | .inr source, site =>
      match site.shared.storage.objects (source.objectBucket, source.objectKey) with
      | none => .error .storageUnavailable
      | some body => .ok (body, site)

/-- The clock; a call of `register_original` with a new `uuid4()`; one of its requests; and
the end of a call, or a crash. -/
inductive SiteEvent where
  | tick
  | receive (upload : OriginalUpload)
  | request (uuid : String) (fault : CallFault)
  | close (uuid : String)

def requestFault : CallFault → Fault storesInterface
  | .none => .none
  | .fails e => .fails (.client e)
  | .unanswered e => .unknown (.client e)

def siteEvent (service : ReportService) : SiteEvent → SiteState → Option SiteState
  | .tick, site =>
      (Environment.step site.shared.ledger.db .tick).map fun db =>
        { site with shared := { site.shared with ledger := { site.shared.ledger with db := db } } }
  | .receive upload, site =>
      if site.shared.uploads.any fun other => other.uuid == upload.uuid then none
      else some
        { shared := { site.shared with uploads := site.shared.uploads ++ [upload] }
          requests := Function.update site.requests upload.uuid
            (some (Job.start upload (registerOriginal service upload))) }
  | .request uuid fault, site =>
      (site.requests.run StoreRequest.exec uuid (requestFault fault) site.shared).map fun after =>
        ⟨after.1, after.2⟩
  | .close uuid, site => some { site with requests := Function.update site.requests uuid none }

def site (settings : WorkerSettings) (service : ReportService) :
    System siteInterface SiteState SiteEvent Cutting WorkerCycleOutcome where
  exec := siteExec
  environment := siteEvent service
  program := process settings

abbrev SiteWorld := World siteInterface SiteState Nat WorkerCycleOutcome

def Shared.empty : Shared where
  ledger := .empty
  storage := emptyStores.storage
  opened _ := none
  uploads := []

def SiteWorld.empty : SiteWorld where
  shared := ⟨.empty, fun _ => none⟩
  threads _ := none
  owner := none
  current := none
  attempts := 0
  history := []

abbrev SiteAction := Action siteInterface Nat SiteEvent Cutting

/-- Any run: any interleaving of the requests of all calls and workers, any failure, calls and
workers that crash, and answers that are lost. -/
abbrev SiteRun (settings : WorkerSettings) (service : ReportService) (world : SiteWorld) : Prop :=
  Reachable (site settings service) (fun _ _ => True) SiteWorld.empty world

/-! ## What the stores hold -/

section Sound

variable {settings : WorkerSettings} {service : ReportService} {s s' : Shared}

/-- Every object is the whole source of one call, and every row is the registration of one. -/
structure Sound (service : ReportService) (s : Shared) : Prop where
  numbered : Numbered s
  uuids : (s.uploads.map OriginalUpload.uuid).Nodup
  objects : ∀ object bytes, s.storage.objects object = some bytes →
    ∃ upload ∈ s.uploads, uploadObject service upload = object ∧ uploadBytes upload = bytes ∧
      Complete service upload
  rows : ∀ registration, Registered s registration →
    ∃ upload ∈ s.uploads, registration = upload.uploaded service ∧ Complete service upload

theorem Sound.empty (service : ReportService) : Sound service .empty where
  numbered x opened := absurd rfl opened
  uuids := List.nodup_nil
  objects object bytes stored := by cases stored
  rows registration registered := by
    obtain ⟨report, found, _⟩ := registered
    cases found

theorem objectKey_injective {upload other : OriginalUpload}
    (same : uploadObject service upload = uploadObject service other) : upload.uuid = other.uuid := by
  have keys : "reports/" ++ upload.uuid ++ "/original.csv" =
      "reports/" ++ other.uuid ++ "/original.csv" := congrArg Prod.snd same
  have uuids := congrArg String.toList keys
  simp only [String.toList_append, List.append_cancel_left_eq, List.append_cancel_right_eq] at uuids
  exact String.toList_inj.mp uuids

theorem uploadObject_ne {upload other : OriginalUpload} (different : upload.uuid ≠ other.uuid) :
    uploadObject service upload ≠ uploadObject service other :=
  fun same => different (objectKey_injective same)

theorem Sound.upload_eq (sound : Sound service s) {upload other : OriginalUpload}
    (known : upload ∈ s.uploads) (known' : other ∈ s.uploads)
    (same : uploadObject service upload = uploadObject service other) : upload = other :=
  List.inj_on_of_nodup_map sound.uuids known known' (objectKey_injective same)

/-! ## The rows -/

theorem registered_iff {registration : Registration} : Registered s registration ↔
    ∃ report ∈ s.ledger.db.reports.rows, Report.registration report = registration := by
  constructor
  · intro registered
    obtain ⟨report, found, same⟩ := registered
    exact ⟨report, ((Table.find_eq_some _).mp found).1, same⟩
  · intro stored
    obtain ⟨report, member, rfl⟩ := stored
    exact ⟨report, (Table.find_eq_some _).mpr ⟨member, rfl⟩, rfl⟩

theorem registered_inserted {registration : Registration} {db : Database}
    (inserted : Storage.insertReport registration s.ledger.db = some db)
    (ledger : s'.ledger = { s.ledger with db := db }) (other : Registration) :
    Registered s' other ↔ Registered s other ∨ other = registration := by
  rw [registered_iff, registered_iff, ledger]
  dsimp only
  rw [insertReport_rows inserted]
  simp only [List.mem_append, List.mem_singleton, or_and_right, exists_or, exists_eq_left]
  exact or_congr Iff.rfl eq_comm

/-- The rows keep the columns of their registrations. -/
theorem registered_moved (effect : RowEffect s.ledger s'.ledger) (registration : Registration) :
    Registered s' registration ↔ Registered s registration := by
  constructor
  · intro registered
    obtain ⟨report', found', same⟩ := registered
    cases effect with
    | moved id set rows moves _ _ _ =>
        rw [rows] at found'
        split at found'
        · next mine =>
            simp only [Option.map_eq_some_iff] at found'
            obtain ⟨report, found, rfl⟩ := found'
            exact ⟨report, mine ▸ found, (moves report found).registration.symm.trans same⟩
        · exact ⟨report', found', same⟩
    | applied report counters found ready _ rows _ =>
        rw [rows] at found'
        split at found'
        · next mine =>
            cases found'
            exact ⟨report, mine ▸ found, same⟩
        · exact ⟨report', found', same⟩
  · intro registered
    obtain ⟨report, found, same⟩ := registered
    obtain ⟨report', found', moves⟩ := effect.rowMoves found
    exact ⟨report', found', moves.registration.trans same⟩

/-! ## The calls among themselves -/

theorem Acts.sound {upload : OriginalUpload} (sound : Sound service s) (known : upload ∈ s.uploads)
    (acts : Acts service upload s s') : Sound service s' where
  numbered := acts.numbered
  uuids := acts.uploads ▸ sound.uuids
  objects object bytes stored := by
    rw [acts.uploads]
    by_cases mine : object = uploadObject service upload
    · subst mine
      rcases acts.own with same | gone | ⟨complete, whole⟩
      · exact sound.objects _ bytes (same ▸ stored)
      · cases gone.symm.trans stored
      · exact ⟨upload, known, rfl, Option.some.inj (whole.symm.trans stored), complete⟩
    · exact sound.objects object bytes ((acts.others object mine).symm.trans stored)
  rows registration registered := by
    rw [acts.uploads]
    rcases acts.ledger with same | ⟨complete, _, db, inserted, ledger⟩
    · unfold Registered at registered
      rw [same] at registered
      exact sound.rows registration registered
    · rcases (registered_inserted inserted ledger registration).mp registered with old | rfl
      · exact sound.rows registration old
      · exact ⟨upload, known, rfl, complete⟩

theorem Acts.apart {upload other : OriginalUpload} (different : upload.uuid ≠ other.uuid)
    (acts : Acts service upload s s') : Others service other s s' where
  object := acts.others _ (Ne.symm (uploadObject_ne different))
  opened x opened := by
    obtain ⟨still, same⟩ := acts.opened x _ opened
    exact ⟨still, same (Ne.symm (uploadObject_ne different))⟩
  rows registration mine := by
    rcases acts.ledger with same | ⟨_, _, db, inserted, ledger⟩
    · unfold Registered
      rw [same]
    · rw [registered_inserted inserted ledger]
      constructor
      · intro registered
        rcases registered with old | rfl
        · exact old
        · exact absurd mine (uploadObject_ne different)
      · exact Or.inl
  uploads other known := acts.uploads ▸ known
  numbered _ := acts.numbered

/-- The calls do not disturb each other. -/
theorem calls_separated (service : ReportService) :
    Separated StoreRequest.exec OriginalUpload.uuid (callSpec service) Raisable (Sound service) where
  executes _ := rfl
  raises _ _ _ raisable := raisable
  fails _ _ _ raisable := raisable
  unknown _ _ _ raisable := raisable
  keeps _ _ _ _ _ _ sound asks executed :=
    (Asks.acts asks.2.1 asks.2.2 executed).sound sound asks.1
  apart _ _ _ _ _ _ _ different _ asks executed :=
    (Asks.acts asks.2.1 asks.2.2 executed).apart different

/-! ## The steps of the service -/

/-- What the stores hold, and every running call meets its own specification. -/
structure SiteSound (service : ReportService) (state : SiteState) : Prop where
  stores : Sound service state.shared
  calls : state.requests.Tracks OriginalUpload.uuid (callSpec service) (CallEnds service)
    state.shared

theorem SiteSound.empty (service : ReportService) : SiteSound service SiteWorld.empty.shared :=
  ⟨.empty service, Pool.Tracks.empty⟩

/-- A change of the rows alone, none of which loses the columns of its registration. -/
theorem SiteSound.rows {state : SiteState} {ledger : Ledger} (sound : SiteSound service state)
    (same : ∀ registration, Registered { state.shared with ledger := ledger } registration ↔
      Registered state.shared registration) :
    SiteSound service { state with shared := { state.shared with ledger := ledger } } where
  stores := ⟨sound.stores.numbered, sound.stores.uuids, sound.stores.objects,
    fun registration registered => sound.stores.rows registration ((same registration).mp registered)⟩
  calls := sound.calls.rely fun _ _ _ =>
    ⟨rfl, fun _ opened => ⟨opened, rfl⟩, fun registration _ => same registration, fun _ known => known, id⟩

theorem SiteSound.transaction {state state' : SiteState} {t : siteInterface.Transaction}
    {reply : siteInterface.Reply t} (sound : SiteSound service state)
    (executed : siteExec t state = .ok (reply, state')) : SiteSound service state' := by
  cases t with
  | inl t =>
      simp only [siteExec] at executed
      split at executed
      · cases executed
      · next ledger done =>
          cases executed
          exact sound.rows fun registration => registered_moved (exec_rowEffect done) registration
  | inr source =>
      simp only [siteExec] at executed
      split at executed
      · cases executed
      · cases executed
        exact sound

theorem SiteSound.receive {state : SiteState} {upload : OriginalUpload}
    (sound : SiteSound service state)
    (fresh : ∀ other ∈ state.shared.uploads, other.uuid ≠ upload.uuid) :
    SiteSound service
      { shared := { state.shared with uploads := state.shared.uploads ++ [upload] }
        requests := Function.update state.requests upload.uuid
          (some (Job.start upload (registerOriginal service upload))) } := by
  obtain ⟨⟨numbered, uuids, objects, rows⟩, calls⟩ := sound
  have added : ∀ other ∈ state.shared.uploads, other ∈ state.shared.uploads ++ [upload] :=
    fun other known => List.mem_append_left _ known
  constructor
  · refine ⟨numbered, ?_, ?_, ?_⟩
    · rw [List.map_append, List.nodup_append]
      refine ⟨uuids, List.nodup_singleton _, ?_⟩
      intro uuid known other new
      obtain ⟨before, member, rfl⟩ := List.mem_map.mp known
      rw [List.map_singleton, List.mem_singleton] at new
      exact new ▸ fresh before member
    · intro object bytes stored
      obtain ⟨other, known, same⟩ := objects object bytes stored
      exact ⟨other, added other known, same⟩
    · intro registration registered
      obtain ⟨other, known, same⟩ := rows registration registered
      exact ⟨other, added other known, same⟩
  · refine Pool.Tracks.start (calls.rely fun _ _ _ =>
      ⟨rfl, fun _ opened => ⟨opened, rfl⟩, fun _ _ => Iff.rfl, added, id⟩) ?_
    refine wp_registerOriginal [] ⟨List.mem_append_right _ (List.mem_singleton_self _), numbered, ?_⟩
    intro registration mine registered
    obtain ⟨other, known, rfl, _⟩ := rows registration registered
    exact fresh other known (objectKey_injective mine)

theorem requestFault_raisable (fault : CallFault) (e : ServiceException)
    (faulty : requestFault fault = .fails e ∨ requestFault fault = .unknown e) : Raisable e := by
  cases fault with
  | none =>
      obtain same | same := faulty
      · cases same
      · cases same
  | fails c =>
      obtain same | same := faulty
      · cases same
        exact ⟨c, rfl⟩
      · cases same
  | unanswered c =>
      obtain same | same := faulty
      · cases same
      · cases same
        exact ⟨c, rfl⟩

theorem SiteSound.event {state state' : SiteState} {event : SiteEvent}
    (sound : SiteSound service state) (happened : siteEvent service event state = some state') :
    SiteSound service state' := by
  cases event with
  | tick =>
      simp only [siteEvent, Environment.step, Option.map_some, Option.some.injEq] at happened
      rw [← happened]
      exact sound.rows fun _ => Iff.rfl
  | receive upload =>
      simp only [siteEvent] at happened
      split at happened
      · cases happened
      · next fresh =>
          cases happened
          refine sound.receive fun other known same => fresh ?_
          exact List.any_eq_true.mpr ⟨other, known, beq_iff_eq.mpr same⟩
  | request uuid fault =>
      simp only [siteEvent, Option.map_eq_some_iff] at happened
      obtain ⟨⟨shared, requests⟩, ran, rfl⟩ := happened
      obtain ⟨stores, calls⟩ := sound.calls.run (calls_separated service) sound.stores
        (requestFault_raisable fault) ran
      exact ⟨stores, calls⟩
  | close uuid =>
      cases happened
      exact ⟨sound.stores, sound.calls.stop uuid⟩

/-- Every step of the service keeps the stores sound. -/
theorem site_sound_step {world next : SiteWorld} {action : SiteAction}
    (sound : SiteSound service world.shared)
    (stepped : (site settings service).step world action = some next) :
    SiteSound service next.shared := by
  rcases step_shared stepped with ⟨same, _⟩ | ⟨e, _, happened, _⟩ |
    ⟨_, _, _, _, t, reply, _, _, _, executed, _⟩
  · exact same ▸ sound
  · exact sound.event happened
  · exact sound.transaction executed

theorem site_sound {allowed : SiteWorld → SiteAction → Prop} {world : SiteWorld}
    (run : Reachable (site settings service) allowed SiteWorld.empty world) :
    SiteSound service world.shared := by
  induction run with
  | start => exact .empty service
  | step action before admitted stepped ih => exact site_sound_step ih stepped

end Sound

/-! ## A sample -/

def stockFile (rows : String) : Bytes :=
  Utf8Escape.encode <| PyText.ofString <|
    "warehouse_code,warehouse_name,sku,product_name,quantity\n" ++ rows

theorem stockFile_some : stockFile "W,w,S,s,1\nW,w,T,t,2\n" ≠ [] ∧ stockFile "W,v,T,t,5\n" ≠ [] := by
  decide +kernel

def sampleUpload (uuid : String) (reportId : Nat) (file : Bytes) (some : file ≠ []) :
    OriginalUpload where
  source := ⟨[.returns file],
    fun empty => some (ReadAnswer.returns.inj (List.mem_singleton.mp empty)).symm⟩
  filename := "stock.csv"
  uuid := uuid
  reportId := reportId
  createdAt := 0

def firstUpload : OriginalUpload := sampleUpload "first" 1 _ stockFile_some.1

def secondUpload : OriginalUpload := sampleUpload "second" 2 _ stockFile_some.2

def sampleSettings : WorkerSettings := ⟨⟨100, 200, 10, 40⟩, 2, Nat.two_pos⟩

def sampleCutting : Cutting := ⟨fun body => ⟨[body], List.flatten_singleton⟩, sampleDelivery.sizes⟩

def asks (uuid : String) (fault : CallFault) : SiteAction := .environment (.request uuid fault)

/-- Two calls take turns; the second does not hear that its upload is complete, and gives
up, while the first registers its report. -/
def overlapActions : List SiteAction :=
  [.environment (.receive firstUpload), .environment (.receive secondUpload),
    asks "first" .none, asks "second" .none, asks "second" .none, asks "first" .none,
    asks "second" (.unanswered .botoCoreError), asks "first" .none, asks "second" .none,
    asks "first" .none]

theorem overlapActions_run : ((site sampleSettings sampleService).runs SiteWorld.empty
    overlapActions).isSome = true := by
  decide +kernel

def overlapWorld : SiteWorld :=
  ((site sampleSettings sampleService).runs SiteWorld.empty overlapActions).get overlapActions_run

theorem overlapWorld_reached : SiteRun sampleSettings sampleService overlapWorld :=
  reachable_runs overlapActions _ _ (fun _ _ _ => trivial) .start
    (Option.some_get overlapActions_run).symm

end StockImport.Site
