import StockImport.Db.Transactions
import StockImport.Storage.Upload

/-!
# Registration

`ReportService.register_original` over the object store and the database, which have
no transaction in common.  The compensating delete runs after every exception of the
transaction, one of its `COMMIT` included.
-/

set_option autoImplicit false

namespace StockImport.Storage

open Csv Db Tables

/-! ## normalize_original_filename -/

/-- `PurePosixPath(path).name`. -/
def purePathName (path : List Char) : List Char :=
  ((path.splitOn '/').filter fun part => part ≠ [] ∧ part ≠ ['.']).getLastD []

def normalizeOriginalFilename (filename : Option String) : String :=
  let normalized := (filename.getD "").toList.map fun c => if c = '\\' then '/' else c
  let safeName := (purePathName normalized).filter fun c => ' ' ≤ c ∧ c ≠ '\x7f'
  if safeName.take 255 = [] then "original.csv" else String.ofList (safeName.take 255)

/-! ## register_original -/

structure ReportService where
  bucket : String
  maxUploadBytes : Nat

/-- Whether the transaction of the registration ends with an exception, and whether
its `COMMIT` is durable then. -/
inductive TransactionFault where
  | none
  | fails
  | unanswered
  deriving DecidableEq, Repr

/-- One call of `register_original`: its arguments and what it draws (`uuid4()`, the id
and the time of the row). -/
structure OriginalUpload where
  source : ReadableStream
  filename : Option String
  uuid : String
  reportId : Nat
  createdAt : Nat

/-- What happens to the requests of a call. -/
structure UploadFaults where
  client : Client
  transaction : TransactionFault

structure Stores where
  db : Database
  storage : ObjectStore

def OriginalUpload.objectKey (upload : OriginalUpload) : String :=
  "reports/" ++ upload.uuid ++ "/original.csv"

def OriginalUpload.registration (upload : OriginalUpload) (service : ReportService)
    (result : UploadResult) : Registration where
  id := upload.reportId
  originalFilename := normalizeOriginalFilename upload.filename
  objectBucket := service.bucket
  objectKey := upload.objectKey
  sizeBytes := result.sizeBytes
  checksumSha256 := some result.checksumSha256
  createdAt := upload.createdAt

/-- The check `checksum_sha256_format` of the table. -/
def checksumFormat : Option String → Bool
  | none => true
  | some checksum =>
      decide (checksum.toList.length = 64) && checksum.toList.all fun c => c ∈ Sha256.hexDigits

/-- The `INSERT` of a report. -/
def insertReport (registration : Registration) (db : Database) : Option Database :=
  if checksumFormat registration.checksumSha256 then Environment.step db (.register registration)
  else none

/-- The transaction of the registration: whether it returns, and the database after it. -/
def commitReport (fault : TransactionFault) (registration : Registration) (db : Database) :
    Bool × Database :=
  match fault, insertReport registration db with
  | .none, some after => (true, after)
  | .unanswered, some after => (false, after)
  | _, _ => (false, db)

/-- `_compensating_delete`; `delete_object` makes its failures `StorageUnavailableError`,
which is logged. -/
def compensatingDelete (client : Client) (bucket key : String) (store : ObjectStore) :
    Except ServiceException Unit × ObjectStore :=
  match client.ask (.deleteObject bucket key) store with
  | (.ok (), store) => (.ok (), store)
  | (.error .other, store) => (.error (.client .other), store)
  | (.error _, store) => (.ok (), store)

def registerOriginal (service : ReportService) (upload : OriginalUpload) (faults : UploadFaults)
    (stores : Stores) :
    Except ServiceException Report × Stores :=
  match uploadStream faults.client service.bucket upload.objectKey upload.source.answers
      service.maxUploadBytes stores.storage with
  | (.error e, storage) => (.error e, ⟨stores.db, storage⟩)
  | (.ok result, storage) =>
      let registration := upload.registration service result
      match commitReport faults.transaction registration stores.db with
      | (true, db) => (.ok registration.report, ⟨db, storage⟩)
      | (false, db) =>
          match compensatingDelete faults.client service.bucket upload.objectKey storage with
          | (.error e, storage) => (.error e, ⟨db, storage⟩)
          | (.ok (), storage) => (.error .reportPersistence, ⟨db, storage⟩)

/-! ## What the stores hold afterwards -/

/-- The key that `uuid4()` makes and the generated id are new. -/
structure Fresh (service : ReportService) (upload : OriginalUpload) (db : Database) : Prop where
  key : ∀ report ∈ db.reports.rows,
    (report.objectBucket, report.objectKey) ≠ (service.bucket, upload.objectKey)
  id : ∀ report ∈ db.reports.rows, report.id ≠ upload.reportId

/-- A returned report is stored as pending with the bytes of its source; a file that is
too large or a storage that is not available leaves no row; and no registered report is
without its object. -/
structure Consistent (service : ReportService) (upload : OriginalUpload) (faults : UploadFaults)
    (stores : Stores) : Prop where
  returned : ∀ report, (registerOriginal service upload faults stores).1 = .ok report →
    report.status = .pending ∧
    (registerOriginal service upload faults stores).2.db.reports.find report.id = some report ∧
    (∀ e, ReadAnswer.raises e ∉ upload.source.answers) ∧
    (registerOriginal service upload faults stores).2.storage.objects
      (report.objectBucket, report.objectKey) = some (sourceBytes upload.source.answers) ∧
    report.sizeBytes = (sourceBytes upload.source.answers).length ∧
    report.checksumSha256 = some (Sha256.hexdigest (sourceBytes upload.source.answers))
  refused : ∀ e, (registerOriginal service upload faults stores).1 = .error e →
    (e = .fileTooLarge ∨ e.isStorageUnavailable = true) →
      (registerOriginal service upload faults stores).2.db = stores.db
  kept : ∀ report ∈ (registerOriginal service upload faults stores).2.db.reports.rows,
    (report ∈ stores.db.reports.rows ∧
      (registerOriginal service upload faults stores).2.storage.objects
          (report.objectBucket, report.objectKey) =
        stores.storage.objects (report.objectBucket, report.objectKey)) ∨
    (registerOriginal service upload faults stores).2.storage.objects
        (report.objectBucket, report.objectKey) ≠ none

section Registration

variable {service : ReportService} {upload : OriginalUpload} {faults : UploadFaults} {stores : Stores}
  {registration : Registration} {db after : Database}

theorem checksumFormat_hexdigest (bytes : Bytes) :
    checksumFormat (some (Sha256.hexdigest bytes)) = true := by
  obtain ⟨length, digits⟩ := Sha256.hexdigest_digits bytes
  simp only [checksumFormat, length, decide_true, Bool.true_and, List.all_eq_true,
    decide_eq_true_eq]
  exact digits

theorem insertReport_rows (inserted : insertReport registration db = some after) :
    after.reports.rows = db.reports.rows ++ [registration.report] := by
  unfold insertReport at inserted
  split at inserted
  · simp only [Environment.step] at inserted
    split at inserted
    · cases inserted
    · simp only [Option.map_eq_some_iff] at inserted
      obtain ⟨reports, added, rfl⟩ := inserted
      exact Table.insertAll_rows added
  · cases inserted

theorem insertReport_some (format : checksumFormat registration.checksumSha256 = true)
    (key : ∀ report ∈ db.reports.rows, (report.objectBucket, report.objectKey) ≠
      (registration.objectBucket, registration.objectKey))
    (id : ∀ report ∈ db.reports.rows, report.id ≠ registration.id) :
    ∃ after, insertReport registration db = some after := by
  have newKey : (db.reports.rows.any fun report =>
      report.objectBucket == registration.objectBucket &&
        report.objectKey == registration.objectKey) = false := by
    rw [List.any_eq_false]
    intro report member same
    simp only [Bool.and_eq_true, beq_iff_eq] at same
    exact key report member (Prod.ext same.1 same.2)
  obtain ⟨reports, added⟩ : ∃ reports, db.reports.insertAll [registration.report] = some reports :=
    Table.insertAll_some (List.nodup_singleton _) fun report member new isNew => by
      rw [List.mem_singleton.mp isNew]
      exact id report member
  exact ⟨{ db with reports := reports }, by
    simp [insertReport, format, Environment.step, newKey, added]⟩

/-- The database after the transaction: with the new row, or as it was. -/
theorem commitReport_cases {fault : TransactionFault} {returns : Bool}
    (committed : commitReport fault registration db = (returns, after)) :
    (after.reports.rows = db.reports.rows ++ [registration.report] ∧
        ((returns = true ∧ fault = .none) ∨ (returns = false ∧ fault = .unanswered))) ∨
      (after = db ∧ returns = false ∧
        (fault = .unanswered → insertReport registration db = none)) := by
  unfold commitReport at committed
  split at committed
  · next inserted =>
      cases committed
      exact Or.inl ⟨insertReport_rows inserted, Or.inl ⟨rfl, rfl⟩⟩
  · next inserted =>
      cases committed
      exact Or.inl ⟨insertReport_rows inserted, Or.inr ⟨rfl, rfl⟩⟩
  · next _ different =>
      cases committed
      refine Or.inr ⟨rfl, rfl, ?_⟩
      rintro rfl
      cases inserted : insertReport registration db with
      | none => rfl
      | some after => exact absurd inserted (different after rfl)

theorem compensatingDelete_store (client : Client) (bucket key : String) (store : ObjectStore) :
    (compensatingDelete client bucket key store).2 =
      (client.ask (.deleteObject bucket key) store).2 := by
  unfold compensatingDelete
  cases client.ask (.deleteObject bucket key) store with
  | mk result after =>
      cases result with
      | ok _ => rfl
      | error e =>
          cases e with
          | other | botoCoreError | clientError => rfl

theorem compensatingDelete_error (client : Client) (bucket key : String) (store : ObjectStore) :
    ∀ e, (compensatingDelete client bucket key store).1 = .error e → e = .client .other := by
  intro e raised
  unfold compensatingDelete at raised
  cases asked : client.ask (.deleteObject bucket key) store with
  | mk result after =>
      rw [asked] at raised
      cases result with
      | ok _ => cases raised
      | error e' =>
          cases e' with
          | other =>
              cases raised
              rfl
          | botoCoreError | clientError => cases raised

/-- The registration of a source that has been uploaded. -/
def OriginalUpload.uploaded (upload : OriginalUpload) (service : ReportService) : Registration :=
  upload.registration service
    ⟨(sourceBytes upload.source.answers).length, Sha256.hexdigest (sourceBytes upload.source.answers)⟩

/-- The ways a registration can end: its upload fails; its row is stored and returned;
or the transaction raises, with or without the row, and the object is deleted. -/
inductive Ends (service : ReportService) (upload : OriginalUpload) (faults : UploadFaults)
    (stores : Stores) : Except ServiceException Report × Stores → Prop
  | refused (e : ServiceException) (storage : ObjectStore)
      (stopped : ¬ GoesThrough faults.client service.maxUploadBytes upload.source)
      (others : ∀ object, object ≠ (service.bucket, upload.objectKey) →
        storage.objects object = stores.storage.objects object) :
      Ends service upload faults stores (.error e, ⟨stores.db, storage⟩)
  | returned (db : Database) (storage : ObjectStore) (answered : faults.transaction = .none)
      (through : GoesThrough faults.client service.maxUploadBytes upload.source)
      (rows : db.reports.rows = stores.db.reports.rows ++ [(upload.uploaded service).report])
      (objects : storage.objects = Function.update stores.storage.objects
        (service.bucket, upload.objectKey) (some (sourceBytes upload.source.answers))) :
      Ends service upload faults stores (.ok (upload.uploaded service).report, ⟨db, storage⟩)
  | raised (e : ServiceException) (db : Database) (storage last : ObjectStore)
      (through : GoesThrough faults.client service.maxUploadBytes upload.source)
      (persistence : e = .reportPersistence ∨ e = .client .other)
      (rows : (db.reports.rows = stores.db.reports.rows ++ [(upload.uploaded service).report] ∧
        faults.transaction = .unanswered) ∨
        (db = stores.db ∧ (faults.transaction = .unanswered →
          insertReport (upload.uploaded service) stores.db = none)))
      (objects : storage.objects = Function.update stores.storage.objects
        (service.bucket, upload.objectKey) (some (sourceBytes upload.source.answers)))
      (deleted : last.objects = if (faults.client .deleteObject).takesEffect then
        Function.update storage.objects (service.bucket, upload.objectKey) none
        else storage.objects) :
      Ends service upload faults stores (.error e, ⟨db, last⟩)

theorem registerOriginal_ends (service : ReportService) (upload : OriginalUpload)
    (faults : UploadFaults) (stores : Stores) :
    Ends service upload faults stores (registerOriginal service upload faults stores) := by
  have uploaded := uploadStream_uploaded faults.client service.bucket upload.objectKey upload.source
    service.maxUploadBytes stores.storage
  have others := uploadStream_objects faults.client service.bucket upload.objectKey
    upload.source.answers service.maxUploadBytes stores.storage
  unfold registerOriginal
  cases ran : uploadStream faults.client service.bucket upload.objectKey upload.source.answers
      service.maxUploadBytes stores.storage with
  | mk result storage =>
      rw [ran] at uploaded others
      cases result with
      | error e => exact .refused e storage uploaded others
      | ok result =>
          obtain ⟨through, rfl, objects⟩ := uploaded
          dsimp only
          cases committed : commitReport faults.transaction (upload.uploaded service) stores.db with
          | mk returns db =>
              have cases := commitReport_cases committed
              unfold OriginalUpload.uploaded at committed
              rw [committed]
              cases returns with
              | true =>
                  rcases cases with ⟨rows, ⟨_, answered⟩ | ⟨impossible, _⟩⟩ | ⟨_, impossible, _⟩
                  · exact .returned db storage answered through rows objects
                  · cases impossible
                  · cases impossible
              | false =>
                  have rows : (db.reports.rows =
                      stores.db.reports.rows ++ [(upload.uploaded service).report] ∧
                        faults.transaction = .unanswered) ∨
                      (db = stores.db ∧ (faults.transaction = .unanswered →
                        insertReport (upload.uploaded service) stores.db = none)) := by
                    rcases cases with ⟨rows, ⟨impossible, _⟩ | ⟨_, fault⟩⟩ | ⟨same, _, refused⟩
                    · cases impossible
                    · exact Or.inl ⟨rows, fault⟩
                    · exact Or.inr ⟨same, refused⟩
                  have store := compensatingDelete_store faults.client service.bucket
                    upload.objectKey storage
                  have objectsAfter := ask_deleteObject faults.client service.bucket
                    upload.objectKey storage
                  rw [← store] at objectsAfter
                  cases deleted : compensatingDelete faults.client service.bucket upload.objectKey
                      storage with
                  | mk answer last =>
                      have raises := compensatingDelete_error faults.client service.bucket
                        upload.objectKey storage
                      rw [deleted] at objectsAfter raises
                      cases answer with
                      | ok _ =>
                          exact .raised _ db storage last through (Or.inl rfl) rows objects
                            objectsAfter
                      | error e =>
                          exact .raised e db storage last through (Or.inr (raises e rfl)) rows objects
                            objectsAfter

theorem Fresh.inserted (fresh : Fresh service upload stores.db) :
    ∃ after, insertReport (upload.uploaded service) stores.db = some after :=
  insertReport_some (checksumFormat_hexdigest _) fresh.key fresh.id

/-- A source that fits raises nowhere. -/
theorem Fits.not_raises {room : Nat} {answers : List ReadAnswer} (fits : Fits room answers)
    (e : ServiceException) : ReadAnswer.raises e ∉ answers := by
  induction answers generalizing room with
  | nil => exact List.not_mem_nil
  | cons answer answers ih =>
      cases answer with
      | raises e' => exact fits.elim
      | returns chunk =>
          intro member
          rcases List.mem_cons.mp member with same | later
          · cases same
          · exact ih fits.2 later

/-- The registrations of others keep their objects. -/
theorem Ends.others {ends : Except ServiceException Report × Stores}
    (how : Ends service upload faults stores ends) :
    ∀ object, object ≠ (service.bucket, upload.objectKey) →
      ends.2.storage.objects object = stores.storage.objects object := by
  intro object different
  cases how with
  | refused e storage stopped others => exact others object different
  | returned db storage answered through rows objects =>
      dsimp only
      rw [objects, Function.update_of_ne different]
  | raised e db storage last through persistence rows objects deleted =>
      dsimp only
      rw [deleted]
      split
      · rw [Function.update_of_ne different, objects, Function.update_of_ne different]
      · rw [objects, Function.update_of_ne different]

/-- The compensating delete takes the object of a durable registration. -/
theorem loses_registered (fresh : Fresh service upload stores.db)
    (through : GoesThrough faults.client service.maxUploadBytes upload.source)
    (unanswered : faults.transaction = .unanswered)
    (deletes : (faults.client .deleteObject).takesEffect = true) :
    ¬ Consistent service upload faults stores := by
  rintro ⟨_, _, kept⟩
  have ends := registerOriginal_ends service upload faults stores
  obtain ⟨after, inserted⟩ := fresh.inserted
  generalize registerOriginal service upload faults stores = outcome at ends kept
  cases ends with
  | refused e storage stopped _ => exact stopped through
  | returned db storage answered _ _ _ => cases unanswered.symm.trans answered
  | raised e db storage last _ _ rows objects deleted =>
      rcases rows with ⟨rows, _⟩ | ⟨_, refused⟩
      · have member : (upload.uploaded service).report ∈ db.reports.rows := by
          rw [rows]
          exact List.mem_append_right _ (List.mem_singleton_self _)
        have gone : last.objects (service.bucket, upload.objectKey) = none := by
          rw [deleted, if_pos deletes, Function.update_self]
        rcases kept _ member with ⟨old, _⟩ | there
        · exact fresh.key _ old rfl
        · exact there gone
      · cases inserted.symm.trans (refused unanswered)

/-- Where the new object is stored, every row has one: the old rows theirs, the new row this. -/
theorem rows_keep_objects {rows : List Report} {objects : String × String → Option Bytes}
    {bytes : Bytes} (old : ∀ report ∈ stores.db.reports.rows, report ∈ stores.db.reports.rows ∧
      objects (report.objectBucket, report.objectKey) =
        stores.storage.objects (report.objectBucket, report.objectKey))
    (added : rows = stores.db.reports.rows ++ [(upload.uploaded service).report])
    (stored : objects (service.bucket, upload.objectKey) = some bytes) :
    ∀ report ∈ rows,
      (report ∈ stores.db.reports.rows ∧ objects (report.objectBucket, report.objectKey) =
        stores.storage.objects (report.objectBucket, report.objectKey)) ∨
      objects (report.objectBucket, report.objectKey) ≠ none := by
  intro report member
  rw [added] at member
  rcases List.mem_append.mp member with known | new
  · exact Or.inl (old report known)
  · right
    rw [List.mem_singleton.mp new]
    intro gone
    cases stored.symm.trans gone

end Registration

/-- The stores stay consistent exactly where the object of a durable registration is not
deleted: unless the upload goes through, the `COMMIT` is durable although it raises, and
the compensating delete takes effect. -/
theorem registration_consistent (service : ReportService) (upload : OriginalUpload)
    (faults : UploadFaults) (stores : Stores) (fresh : Fresh service upload stores.db) :
    Consistent service upload faults stores ↔
      ¬ (GoesThrough faults.client service.maxUploadBytes upload.source ∧
        faults.transaction = .unanswered ∧
        (faults.client .deleteObject).takesEffect = true) := by
  have ends := registerOriginal_ends service upload faults stores
  have others := ends.others
  constructor
  · rintro consistent ⟨through, unanswered, deletes⟩
    exact loses_registered fresh through unanswered deletes consistent
  · intro condition
    have old : ∀ report ∈ stores.db.reports.rows, report ∈ stores.db.reports.rows ∧
        (registerOriginal service upload faults stores).2.storage.objects
            (report.objectBucket, report.objectKey) =
          stores.storage.objects (report.objectBucket, report.objectKey) :=
      fun report member => ⟨member, others _ (fresh.key report member)⟩
    refine ⟨?_, ?_, ?_⟩
    · generalize registerOriginal service upload faults stores = outcome at ends
      cases ends with
      | refused e storage _ _ | raised e db storage last _ _ _ _ _ =>
          intro report impossible
          cases impossible
      | returned db storage _ through rows objects =>
          intro report returned
          cases returned
          refine ⟨rfl, ?_, through.fits.not_raises, ?_, rfl, rfl⟩
          · rw [Table.find_eq_some, rows]
            exact ⟨List.mem_append_right _ (List.mem_singleton_self _), rfl⟩
          · dsimp only
            rw [objects]
            exact Function.update_self _ _ _
    · generalize registerOriginal service upload faults stores = outcome at ends
      cases ends with
      | refused e storage _ _ => exact fun _ _ _ => rfl
      | returned db storage _ _ _ _ =>
          intro e impossible
          cases impossible
      | raised e db storage last _ persistence _ _ _ =>
          intro thrown same uploadFailed
          cases same
          rcases persistence with rfl | rfl
          · simp [ServiceException.isStorageUnavailable] at uploadFailed
          · simp [ServiceException.isStorageUnavailable] at uploadFailed
    · generalize registerOriginal service upload faults stores = outcome at ends old
      cases ends with
      | refused e storage _ _ => exact fun report member => Or.inl (old report member)
      | returned db storage _ _ rows objects =>
          have stored : storage.objects (service.bucket, upload.objectKey) =
              some (sourceBytes upload.source.answers) := by
            rw [objects, Function.update_self]
          exact rows_keep_objects old rows stored
      | raised e db storage last through _ rows objects deleted =>
          rcases rows with ⟨rows, unanswered⟩ | ⟨rfl, _⟩
          · have kept : (faults.client .deleteObject).takesEffect = false := by
              cases effect : (faults.client .deleteObject).takesEffect with
              | true => exact absurd ⟨through, unanswered, effect⟩ condition
              | false => rfl
            have stored : last.objects (service.bucket, upload.objectKey) =
                some (sourceBytes upload.source.answers) := by
              rw [deleted, kept, if_neg Bool.false_ne_true, objects, Function.update_self]
            exact rows_keep_objects old rows stored
          · exact fun report member => Or.inl (old report member)

def emptyUpload : OriginalUpload where
  source := ⟨[], List.not_mem_nil⟩
  filename := some "stock.csv"
  uuid := "0d3f1f4a-6a7c-4e7e-9a53-0c6a35e2f3b1"
  reportId := 1
  createdAt := 0

def sampleService : ReportService := ⟨"stock-reports", 1073741824⟩

def emptyStores : Stores := ⟨.empty, ⟨fun _ => none, fun _ => none, 1, []⟩⟩

theorem emptyUpload_fresh : Fresh sampleService emptyUpload emptyStores.db where
  key _ member := by cases member
  id _ member := by cases member

/-- The stores with the empty file. -/
def oneReport : Stores where
  db := { Database.empty with reports := ⟨[(emptyUpload.uploaded sampleService).report], by simp⟩ }
  storage := ⟨Function.update (fun _ => none) (sampleService.bucket, emptyUpload.objectKey) (some []),
    fun _ => none, 1, []⟩

/-- A file of three bytes that arrives in two reads. -/
def shortUpload : OriginalUpload where
  source := ⟨[.returns [83, 44], .returns [10]], by simp⟩
  filename := some "stock.csv"
  uuid := "7a1c64d2-91f0-4b0e-8c11-2f0f7b6f9e55"
  reportId := 2
  createdAt := 1

/-- The answer of the `COMMIT` is lost, and the delete does not reach the store. -/
def undeletedFaults : UploadFaults where
  client call := if call = .deleteObject then .fails .botoCoreError else .none
  transaction := .unanswered

theorem shortUpload_fresh : Fresh sampleService shortUpload oneReport.db where
  key report member := by
    rw [List.mem_singleton.mp member]
    decide
  id report member := by
    rw [List.mem_singleton.mp member]
    decide

/-- The row of the upload stays, and so does its object. -/
theorem registration_consistent_undeletedFaults :
    Fresh sampleService shortUpload oneReport.db ∧
      Consistent sampleService shortUpload undeletedFaults oneReport := by
  refine ⟨shortUpload_fresh, ?_⟩
  rw [registration_consistent _ _ _ _ shortUpload_fresh]
  intro lost
  obtain ⟨_, _, deletes⟩ := lost
  cases deletes

/-- The `COMMIT` is durable, the client sees an exception, and the original goes. -/
theorem registration_loses_original :
    ¬ ∀ (service : ReportService) (upload : OriginalUpload) (faults : UploadFaults)
        (stores : Stores), Fresh service upload stores.db →
      Consistent service upload faults stores := by
  intro always
  have lost := always sampleService emptyUpload ⟨fun _ => .none, .unanswered⟩ emptyStores
    emptyUpload_fresh
  refine loses_registered emptyUpload_fresh ?_ rfl rfl lost
  exact ⟨trivial, Nat.zero_le _, fun _ _ => rfl⟩

end StockImport.Storage
