import StockImport.Library.Pool
import StockImport.Storage.Registration
import StockImport.Worker.Overlapping

/-!
# Requests side by side

`register_original` as a program over the object store and the database, where any
number of calls and the workers run at the same time.  Each call owns one object, and
the multipart uploads opened for it; this is what keeps the calls apart.
-/

set_option autoImplicit false

namespace StockImport.Site

open Csv Db Tables Storage Worker Transactional

/-! ## The stores -/

/-- The database, the object store with the object of each multipart upload that was
opened, and the calls of `register_original` so far. -/
structure Shared where
  ledger : Ledger
  storage : ObjectStore
  opened : Nat → Option (String × String)
  uploads : List OriginalUpload

inductive StoreRequest where
  | s3 (request : S3Request)
  | insertReport (registration : Registration)

abbrev StoreRequest.Reply : StoreRequest → Type
  | .s3 request => request.Reply
  | .insertReport _ => Unit

/-- A call has nothing to ask for outside the two stores. -/
abbrev storesInterface : Interface where
  Exception := ServiceException
  Call := Empty
  Transaction := StoreRequest
  Reply := StoreRequest.Reply

def opens (request : S3Request) (nextUploadId : Nat) (opened : Nat → Option (String × String)) :
    Nat → Option (String × String) :=
  match request with
  | .createMultipartUpload bucket key => Function.update opened nextUploadId (some (bucket, key))
  | _ => opened

def StoreRequest.exec : (request : StoreRequest) → Shared →
    Except ServiceException (request.Reply × Shared)
  | .s3 request, s =>
      match request.exec { s.storage with requests := s.storage.requests ++ [request] } with
      | none => .error (.client .clientError)
      | some (reply, storage) =>
          .ok (reply,
            { s with storage := storage, opened := opens request s.storage.nextUploadId s.opened })
  | .insertReport registration, s =>
      match Storage.insertReport registration s.ledger.db with
      | none => .error .other
      | some db => .ok ((), { s with ledger := { s.ledger with db := db } })

/-! ## upload_stream -/

abbrev StoreProgram := Program storesInterface

def s3 (request : S3Request) : StoreProgram request.Reply :=
  Program.commit (i := storesInterface) (.s3 request)

def raise {α : Type} (e : ServiceException) : StoreProgram α :=
  Program.raise (i := storesInterface) e

/-- `while part`, and `complete_multipart_upload` after it. -/
def uploadParts (bucket key : String) (uploadId maxBytes : Nat) (progress : UploadProgress)
    (part : Bytes) (source : List ReadAnswer) : StoreProgram UploadResult :=
  if part = [] then do
    let _ ← s3 (.completeMultipartUpload bucket key uploadId progress.parts)
    pure ⟨progress.totalSize, progress.checksum.hexdigest⟩
  else if maxBytes < progress.totalSize + part.length then raise .fileTooLarge
  else do
    let eTag ← s3 (.uploadPart bucket key uploadId progress.partNumber part)
    match read : readPart source [] with
    | .error e => raise e
    | .ok (next, rest) =>
        uploadParts bucket key uploadId maxBytes
          ⟨progress.totalSize + part.length, progress.checksum.update part,
            progress.parts ++ [(eTag, progress.partNumber)], progress.partNumber + 1⟩
          next rest
termination_by if part = [] then 0 else source.length + 1
decreasing_by
  have shorter := (readPart_length read).2
  split
  · exact Nat.succ_pos _
  · next more => exact Nat.succ_lt_succ (shorter more)

/-- `_abort_multipart_upload`, which lets no exception out. -/
def abortMultipartUpload (bucket key : String) (uploadId : Nat) : StoreProgram Unit :=
  Program.handle (s3 (.abortMultipartUpload bucket key uploadId)) fun _ => pure ()

/-- `except (BotoCoreError, ClientError)`. -/
def ofClient : ServiceException → ServiceException
  | .client .botoCoreError => .storageUnavailable
  | .client .clientError => .storageUnavailable
  | e => e

def putEmpty (bucket key : String) : StoreProgram UploadResult :=
  Program.handle
    (do
      let _ ← s3 (.putObject bucket key [])
      pure ⟨0, Sha256.Hasher.new.hexdigest⟩)
    fun e => raise (ofClient e)

/-- `upload_stream` from `upload_id = None` on. -/
def multipartUpload (bucket key : String) (maxBytes : Nat) (firstPart : Bytes)
    (source : List ReadAnswer) : StoreProgram UploadResult := do
  let uploadId ← Program.handle (s3 (.createMultipartUpload bucket key)) fun e => raise e.ofUpload
  Program.handle (uploadParts bucket key uploadId maxBytes .start firstPart source) fun e => do
    let _ ← abortMultipartUpload bucket key uploadId
    raise e.ofUpload

def uploadStream (bucket key : String) (source : List ReadAnswer) (maxBytes : Nat) :
    StoreProgram UploadResult :=
  match readPart source [] with
  | .error e => raise e
  | .ok (firstPart, source) =>
      if firstPart = [] then putEmpty bucket key
      else multipartUpload bucket key maxBytes firstPart source

/-! ## register_original -/

def deleteObject (bucket key : String) : StoreProgram Unit :=
  Program.handle (s3 (.deleteObject bucket key)) fun e => raise (ofClient e)

def compensatingDelete (bucket key : String) : StoreProgram Unit :=
  Program.handle (deleteObject bucket key) fun e =>
    if e.isStorageUnavailable then pure () else raise e

def commitReport (registration : Registration) : StoreProgram Report := do
  let _ ← Program.commit (i := storesInterface) (.insertReport registration)
  pure registration.report

/-- One call; its requests may fail in every way, so the faults that `upload` names for a
call on its own are not read. -/
def registerOriginal (service : ReportService) (upload : OriginalUpload) : StoreProgram Report := do
  let result ← uploadStream service.bucket upload.objectKey upload.source.answers
    service.maxUploadBytes
  Program.handle (commitReport (upload.registration service result)) fun _ => do
    let _ ← compensatingDelete service.bucket upload.objectKey
    raise .reportPersistence

/-! ## What a call does -/

def uploadObject (service : ReportService) (upload : OriginalUpload) : String × String :=
  (service.bucket, upload.objectKey)

def uploadBytes (upload : OriginalUpload) : Bytes := sourceBytes upload.source.answers

def registrationObject (registration : Registration) : String × String :=
  (registration.objectBucket, registration.objectKey)

/-- The source ended where the call ended: no read raised, none returned too much, and the
bytes are not too many. -/
structure Complete (service : ReportService) (upload : OriginalUpload) : Prop where
  fits : Fits uploadPartSize upload.source.answers
  size : (uploadBytes upload).length ≤ service.maxUploadBytes

/-- A row with the columns of this registration, whatever has become of it since. -/
def Registered (s : Shared) (registration : Registration) : Prop :=
  ∃ report, s.ledger.db.reports.find registration.id = some report ∧
    Report.registration report = registration

/-- No row is about the object. -/
def Unregistered (s : Shared) (object : String × String) : Prop :=
  ∀ registration, registrationObject registration = object → ¬ Registered s registration

/-- Every multipart upload that was opened has an id already given away. -/
def Numbered (s : Shared) : Prop := ∀ x, s.opened x ≠ none → x < s.storage.nextUploadId

section Calls

variable {service : ReportService} {upload : OriginalUpload} {s s' s'' : Shared}

/-- What a call asks the object store for: its own object, its own multipart uploads, and
nothing but the bytes of its source. -/
def Proper (service : ReportService) (upload : OriginalUpload) (s : Shared) : S3Request → Prop
  | .putObject bucket key body =>
      (bucket, key) = uploadObject service upload ∧ Complete service upload ∧
        body = uploadBytes upload
  | .createMultipartUpload bucket key => (bucket, key) = uploadObject service upload
  | .uploadPart bucket key x _ _ =>
      (bucket, key) = uploadObject service upload ∧ s.opened x = some (bucket, key)
  | .completeMultipartUpload bucket key x parts =>
      (bucket, key) = uploadObject service upload ∧ s.opened x = some (bucket, key) ∧
        Complete service upload ∧
        ∀ stored body, s.storage.uploads x = some stored → joinParts stored parts = some body →
          body = uploadBytes upload
  | .abortMultipartUpload bucket key x =>
      (bucket, key) = uploadObject service upload ∧ s.opened x = some (bucket, key)
  | .deleteObject bucket key => (bucket, key) = uploadObject service upload

/-- The precondition of a request of the call. -/
def Asks (service : ReportService) (upload : OriginalUpload) (s : Shared) : StoreRequest → Prop
  | .s3 request => Proper service upload s request
  | .insertReport registration => registration = upload.uploaded service ∧
      Complete service upload ∧
      s.storage.objects (uploadObject service upload) = some (uploadBytes upload)

/-- What a request of the call may change. -/
structure Acts (service : ReportService) (upload : OriginalUpload) (s s' : Shared) : Prop where
  others : ∀ object, object ≠ uploadObject service upload →
    s'.storage.objects object = s.storage.objects object
  own : s'.storage.objects (uploadObject service upload) =
      s.storage.objects (uploadObject service upload) ∨
    s'.storage.objects (uploadObject service upload) = none ∨
    (Complete service upload ∧
      s'.storage.objects (uploadObject service upload) = some (uploadBytes upload))
  opened : ∀ x object, s.opened x = some object → s'.opened x = some object ∧
    (object ≠ uploadObject service upload → s'.storage.uploads x = s.storage.uploads x)
  numbered : Numbered s'
  ledger : s'.ledger = s.ledger ∨
    (Complete service upload ∧
      s.storage.objects (uploadObject service upload) = some (uploadBytes upload) ∧
      ∃ db, insertReport (upload.uploaded service) s.ledger.db = some db ∧
        s'.ledger = { s.ledger with db := db })
  uploads : s'.uploads = s.uploads

/-- What a call can rely on. -/
structure Others (service : ReportService) (upload : OriginalUpload) (s s' : Shared) : Prop where
  object : s'.storage.objects (uploadObject service upload) =
    s.storage.objects (uploadObject service upload)
  opened : ∀ x, s.opened x = some (uploadObject service upload) →
    s'.opened x = some (uploadObject service upload) ∧ s'.storage.uploads x = s.storage.uploads x
  rows : ∀ registration, registrationObject registration = uploadObject service upload →
    (Registered s' registration ↔ Registered s registration)
  uploads : ∀ other ∈ s.uploads, other ∈ s'.uploads
  numbered : Numbered s → Numbered s'

theorem Others.refl (s : Shared) : Others service upload s s :=
  ⟨rfl, fun _ opened => ⟨opened, rfl⟩, fun _ _ => Iff.rfl, fun _ known => known, id⟩

theorem Others.trans (first : Others service upload s s') (second : Others service upload s' s'') :
    Others service upload s s'' where
  object := second.object.trans first.object
  opened x opened := by
    obtain ⟨still, same⟩ := first.opened x opened
    obtain ⟨later, same'⟩ := second.opened x still
    exact ⟨later, same'.trans same⟩
  rows registration mine := (second.rows registration mine).trans (first.rows registration mine)
  uploads other known := second.uploads other (first.uploads other known)
  numbered holds := second.numbered (first.numbered holds)

theorem Others.unregistered (others : Others service upload s s')
    (none : Unregistered s (uploadObject service upload)) :
    Unregistered s' (uploadObject service upload) :=
  fun registration mine registered => none registration mine ((others.rows registration mine).mp registered)

/-- What a request may fail with. -/
def Raisable (e : ServiceException) : Prop := ∃ c, e = .client c

/-- A call in the company of others: its requests are as above, and any of them may fail. -/
def callSpec (service : ReportService) (upload : OriginalUpload) : Spec storesInterface Shared where
  exec := StoreRequest.exec
  rely := Others service upload
  rely_refl := Others.refl
  rely_trans _ _ _ := Others.trans
  pre _ t s := upload ∈ s.uploads ∧ Numbered s ∧ Asks service upload s t
  raises _ e := Raisable e
  fails _ e := Raisable e
  unknown _ e := Raisable e
  loses := False

/-! ## The requests -/

theorem exec_s3 {request : S3Request} {reply : request.Reply}
    (executed : (StoreRequest.s3 request).exec s = .ok (reply, s')) :
    ∃ storage, request.exec { s.storage with requests := s.storage.requests ++ [request] } =
        some (reply, storage) ∧
      s' = { s with storage := storage, opened := opens request s.storage.nextUploadId s.opened } := by
  simp only [StoreRequest.exec] at executed
  split at executed
  · cases executed
  · next found =>
      cases executed
      exact ⟨_, found, rfl⟩

theorem exec_insertReport {registration : Registration} {reply : Unit}
    (executed : (StoreRequest.insertReport registration).exec s = .ok (reply, s')) :
    ∃ db, insertReport registration s.ledger.db = some db ∧
      s' = { s with ledger := { s.ledger with db := db } } := by
  simp only [StoreRequest.exec] at executed
  split at executed
  · cases executed
  · next db inserted =>
      cases executed
      exact ⟨db, inserted, rfl⟩

/-- A change of one multipart upload leaves those of other objects as they are. -/
theorem otherUploads_kept {bucket key : String} {uploadId x : Nat} {object : String × String}
    {changed : Option (List UploadedPart)} (mine : (bucket, key) = uploadObject service upload)
    (own : s.opened uploadId = some (bucket, key)) (opened : s.opened x = some object)
    (different : object ≠ uploadObject service upload) :
    Function.update s.storage.uploads uploadId changed x = s.storage.uploads x := by
  refine Function.update_of_ne ?_ _ _
  intro same
  subst same
  exact different (Option.some.inj (opened.symm.trans (own.trans (congrArg some mine))))

/-- A proper request of the object store. -/
theorem Proper.acts {request : S3Request} {reply : request.Reply} (numbered : Numbered s)
    (proper : Proper service upload s request)
    (executed : (StoreRequest.s3 request).exec s = .ok (reply, s')) :
    Acts service upload s s' := by
  obtain ⟨storage, answered, rfl⟩ := exec_s3 executed
  have object : request.object = uploadObject service upload := by
    cases request with
    | putObject | uploadPart | completeMultipartUpload | abortMultipartUpload => exact proper.1
    | createMultipartUpload | deleteObject => exact proper
  have kept : ∀ other, other ≠ uploadObject service upload →
      storage.objects other = s.storage.objects other :=
    fun other different => exec_objects answered other (object ▸ different)
  cases request with
  | putObject bucket key body =>
      cases answered
      refine ⟨kept, Or.inr (Or.inr ⟨proper.2.1, ?_⟩), fun x object opened => ⟨opened, fun _ => rfl⟩,
        numbered, Or.inl rfl, rfl⟩
      rw [← proper.1, ← proper.2.2]
      exact Function.update_self _ _ _
  | createMultipartUpload bucket key =>
      cases answered
      refine ⟨kept, Or.inl rfl, ?_, ?_, Or.inl rfl, rfl⟩
      · intro x object opened
        have old : x ≠ s.storage.nextUploadId :=
          Nat.ne_of_lt (numbered x (by simp [opened]))
        exact ⟨(Function.update_of_ne old _ _).trans opened, fun _ => Function.update_of_ne old _ _⟩
      · intro x opened
        by_cases new : x = s.storage.nextUploadId
        · exact new ▸ Nat.lt_succ_self _
        · have before : Function.update s.opened s.storage.nextUploadId (some (bucket, key)) x ≠
              none := opened
          rw [Function.update_of_ne new] at before
          exact Nat.lt_succ_of_lt (numbered x before)
  | uploadPart bucket key uploadId partNumber body =>
      simp only [S3Request.exec, Option.map_eq_some_iff, Prod.mk.injEq] at answered
      obtain ⟨stored, _, _, rfl⟩ := answered
      exact ⟨kept, Or.inl rfl, fun x object opened =>
        ⟨opened, otherUploads_kept proper.1 proper.2 opened⟩, numbered, Or.inl rfl, rfl⟩
  | completeMultipartUpload bucket key uploadId parts =>
      simp only [S3Request.exec, Option.map_eq_some_iff, Option.bind_eq_some_iff,
        Prod.mk.injEq] at answered
      obtain ⟨body, ⟨stored, found, joined⟩, _, rfl⟩ := answered
      refine ⟨kept, Or.inr (Or.inr ⟨proper.2.2.1, ?_⟩), fun x object opened =>
        ⟨opened, otherUploads_kept proper.1 proper.2.1 opened⟩, numbered, Or.inl rfl, rfl⟩
      rw [← proper.1, ← proper.2.2.2 stored body found joined]
      exact Function.update_self _ _ _
  | abortMultipartUpload bucket key uploadId =>
      simp only [S3Request.exec, Option.map_eq_some_iff, Prod.mk.injEq] at answered
      obtain ⟨stored, _, _, rfl⟩ := answered
      exact ⟨kept, Or.inl rfl, fun x object opened =>
        ⟨opened, otherUploads_kept proper.1 proper.2 opened⟩, numbered, Or.inl rfl, rfl⟩
  | deleteObject bucket key =>
      cases answered
      refine ⟨kept, Or.inr (Or.inl ?_), fun x object opened => ⟨opened, fun _ => rfl⟩, numbered,
        Or.inl rfl, rfl⟩
      rw [← proper]
      exact Function.update_self _ _ _

theorem Asks.acts {t : StoreRequest} {reply : t.Reply} (numbered : Numbered s)
    (asks : Asks service upload s t) (executed : t.exec s = .ok (reply, s')) :
    Acts service upload s s' := by
  cases t with
  | s3 request => exact Proper.acts numbered asks executed
  | insertReport registration =>
      obtain ⟨rfl, complete, stored⟩ := asks
      obtain ⟨db, inserted, rfl⟩ := exec_insertReport executed
      exact ⟨fun _ _ => rfl, Or.inl rfl, fun x object opened => ⟨opened, fun _ => rfl⟩, numbered,
        Or.inr ⟨complete, stored, db, inserted, rfl⟩, rfl⟩

end Calls

end StockImport.Site
