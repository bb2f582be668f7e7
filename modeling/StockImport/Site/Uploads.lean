import StockImport.Site.Requests

/-!
# A call among others

One call of `register_original`, proved for itself against everything the other calls and
the workers may do between its requests.  Each of its requests may fail, or raise
although the store has carried it out.
-/

set_option autoImplicit false

namespace StockImport.Site

open Csv Db Tables Storage Worker Transactional

section Call

variable {service : ReportService} {upload : OriginalUpload} {s s' : Shared}

/-- The call is known, and nothing is registered for it yet. -/
structure Waiting (service : ReportService) (upload : OriginalUpload) (s : Shared) : Prop where
  known : upload ∈ s.uploads
  numbered : Numbered s
  unregistered : Unregistered s (uploadObject service upload)

theorem Waiting.stable : Stable (callSpec service upload) (Waiting service upload) :=
  fun _ _ others waiting =>
    ⟨others.uploads _ waiting.known, others.numbered waiting.numbered,
      others.unregistered waiting.unregistered⟩

theorem Waiting.asks {request : S3Request} (waiting : Waiting service upload s)
    (proper : Proper service upload s request) :
    upload ∈ s.uploads ∧ Numbered s ∧ Proper service upload s request :=
  ⟨waiting.known, waiting.numbered, proper⟩

/-- A request of the object store does nothing to the rows. -/
theorem Waiting.request {request : S3Request} {reply : request.Reply}
    (waiting : Waiting service upload s) (proper : Proper service upload s request)
    (executed : (StoreRequest.s3 request).exec s = .ok (reply, s')) : Waiting service upload s' := by
  have acts := Proper.acts waiting.numbered proper executed
  obtain ⟨storage, _, rfl⟩ := exec_s3 executed
  exact ⟨waiting.known, acts.numbered, waiting.unregistered⟩

/-- A request of the object store from a state that `assertion` describes. -/
theorem wp_s3 {request : S3Request} {post : Post storesInterface Shared request.Reply}
    (stable : StablePost (callSpec service upload) post) {assertion : Shared → Prop}
    (keeps : Stable (callSpec service upload) assertion) {log : List (Commit storesInterface)}
    (before : assertion s)
    (proper : ∀ s, assertion s → upload ∈ s.uploads ∧ Numbered s ∧ Proper service upload s request)
    (answers : ∀ log s reply s', assertion s →
      (StoreRequest.s3 request).exec s = .ok (reply, s') →
        post (.ok reply) log s' ∧ ∀ e, Raisable e → post (.error e) log s')
    (raises : ∀ log s e, assertion s → Raisable e → post (.error e) log s) :
    wp (callSpec service upload) (s3 request) post log s := by
  refine wp_commit _ _ stable keeps before proper (fun s reply s' => answers _ s reply s') ?_
    (fun s e => raises _ s e)
  intro s e holds refused
  refine raises _ s e holds ?_
  simp only [callSpec, StoreRequest.exec] at refused
  split at refused
  · cases refused
    exact ⟨_, rfl⟩
  · cases refused

/-- A client that meets no fault. -/
def faultless : Client := fun _ => .none

/-- What the store does for a request, in the words of such a client. -/
theorem exec_asked {request : S3Request} {reply : request.Reply}
    (executed : (StoreRequest.s3 request).exec s = .ok (reply, s')) :
    faultless.ask request s.storage = (.ok reply, s'.storage) := by
  obtain ⟨storage, answered, rfl⟩ := exec_s3 executed
  exact ask_ok rfl answered

/-- The end of `upload_stream`: the object is stored, or nothing is registered. -/
def UploadEnds (service : ReportService) (upload : OriginalUpload) :
    Post storesInterface Shared UploadResult
  | .ok result, _, s => Waiting service upload s ∧ Complete service upload ∧
      s.storage.objects (uploadObject service upload) = some (uploadBytes upload) ∧
      result = ⟨(uploadBytes upload).length, Sha256.hexdigest (uploadBytes upload)⟩
  | .error _, _, s => Waiting service upload s

theorem uploadEnds_stable : StablePost (callSpec service upload) (UploadEnds service upload) := by
  intro result log s s' others ends
  cases result with
  | ok result =>
      obtain ⟨waiting, complete, stored, same⟩ := ends
      exact ⟨Waiting.stable s s' others waiting, complete, others.object.trans stored, same⟩
  | error e => exact Waiting.stable s s' others ends

/-- The state of the call while its multipart upload is open. -/
structure Opened (service : ReportService) (upload : OriginalUpload) (uploadId : Nat) (s : Shared) :
    Prop where
  waiting : Waiting service upload s
  opened : s.opened uploadId = some (uploadObject service upload)

theorem Opened.stable (uploadId : Nat) :
    Stable (callSpec service upload) (Opened service upload uploadId) :=
  fun s s' others holds =>
    ⟨Waiting.stable s s' others holds.waiting, (others.opened uploadId holds.opened).1⟩

/-- A request of the call leaves its multipart upload its own. -/
theorem Opened.request {uploadId : Nat} {request : S3Request} {reply : request.Reply}
    (holds : Opened service upload uploadId s) (proper : Proper service upload s request)
    (executed : (StoreRequest.s3 request).exec s = .ok (reply, s')) :
    Opened service upload uploadId s' :=
  ⟨holds.waiting.request proper executed,
    ((Proper.acts holds.waiting.numbered proper executed).opened uploadId _ holds.opened).1⟩

/-- The loop over the parts, with what it has sent. -/
structure Sends (service : ReportService) (upload : OriginalUpload) (uploadId : Nat)
    (progress : UploadProgress) (stored : List UploadedPart) (s : Shared) : Prop where
  own : Opened service upload uploadId s
  sending : Sending s.storage uploadId progress stored

theorem Sends.stable (uploadId : Nat) (progress : UploadProgress) (stored : List UploadedPart) :
    Stable (callSpec service upload) (Sends service upload uploadId progress stored) := by
  intro s s' others sends
  obtain ⟨opened, uploads⟩ := others.opened uploadId sends.own.opened
  obtain ⟨sent, parts, numbers, number, total, checksum⟩ := sends.sending
  exact ⟨Opened.stable uploadId s s' others sends.own,
    uploads.trans sent, parts, numbers, number, total, checksum⟩

theorem sending_joined {storage : ObjectStore} {uploadId : Nat} {progress : UploadProgress}
    {stored : List UploadedPart} (sending : Sending storage uploadId progress stored) :
    joinParts stored progress.parts = some (stored.flatMap UploadedPart.body) := by
  have distinct : (stored.map UploadedPart.partNumber).Nodup := by
    rw [sending.numbers]
    exact List.nodup_range'
  exact sending.parts ▸ joinParts_all distinct

/-- The end of the loop over the parts. -/
def PartsEnd (service : ReportService) (upload : OriginalUpload) (uploadId : Nat) :
    Post storesInterface Shared UploadResult
  | .ok result, log, s => UploadEnds service upload (.ok result) log s
  | .error _, _, s => Opened service upload uploadId s

theorem partsEnd_stable (uploadId : Nat) :
    StablePost (callSpec service upload) (PartsEnd service upload uploadId) := by
  intro result log s s' others ends
  cases result with
  | ok result => exact uploadEnds_stable (.ok result) log s s' others ends
  | error e => exact Opened.stable uploadId s s' others ends

section Parts

variable {uploadId : Nat} {progress : UploadProgress} {stored : List UploadedPart} {part : Bytes}
  {source : List ReadAnswer}

theorem wp_completeMultipartUpload (log : List (Commit storesInterface))
    (sends : Sends service upload uploadId progress stored s)
    (whole : stored.flatMap UploadedPart.body = uploadBytes upload)
    (complete : Complete service upload) :
    wp (callSpec service upload)
      (do
        let _ ← s3 (.completeMultipartUpload service.bucket upload.objectKey uploadId progress.parts)
        pure ⟨progress.totalSize, progress.checksum.hexdigest⟩)
      (PartsEnd service upload uploadId) log s := by
  have proper : ∀ s, Sends service upload uploadId progress stored s →
      Proper service upload s
        (.completeMultipartUpload service.bucket upload.objectKey uploadId progress.parts) := by
    intro s sends
    refine ⟨rfl, sends.own.opened, complete, ?_⟩
    intro stored' body found joined
    cases sends.sending.uploads.symm.trans found
    cases (sending_joined sends.sending).symm.trans joined
    exact whole
  refine wp_bind _ _ _ (partsEnd_stable uploadId) (wp_s3 (stablePost_bind _ _
    (partsEnd_stable uploadId)) (Sends.stable uploadId progress stored) sends
    (fun s sends => sends.own.waiting.asks (proper s sends)) ?_ (fun _ _ _ sends _ => sends.own))
  intro log s reply s' sends executed
  have own := sends.own.request (proper s sends) executed
  refine ⟨?_, fun _ _ => own⟩
  obtain ⟨after, asked, objects⟩ := sends.sending.complete service.bucket upload.objectKey
    (rfl : faultless .completeMultipartUpload = .none)
  cases (exec_asked executed).symm.trans asked
  refine wp_pure _ (partsEnd_stable uploadId) ⟨own.waiting, complete, ?_, ?_⟩
  · rw [objects, ← whole]
    exact Function.update_self _ _ _
  · rw [sends.sending.total, sends.sending.checksum, whole]
    rfl

theorem wp_uploadParts (log : List (Commit storesInterface))
    (sends : Sends service upload uploadId progress stored s)
    (within : progress.totalSize ≤ service.maxUploadBytes)
    (nonempty : ReadAnswer.returns [] ∉ source) (bound : part.length ≤ uploadPartSize)
    (last : part.length < uploadPartSize → source = [])
    (bytes : stored.flatMap UploadedPart.body ++ (part ++ sourceBytes source) = uploadBytes upload)
    (fits : Fits uploadPartSize source → Fits uploadPartSize upload.source.answers) :
    wp (callSpec service upload)
      (uploadParts service.bucket upload.objectKey uploadId service.maxUploadBytes progress part
        source)
      (PartsEnd service upload uploadId) log s := by
  induction progress, part, source using
    uploadParts.induct service.bucket upload.objectKey uploadId service.maxUploadBytes
    generalizing s stored log with
  | case1 progress source =>
      have ended : source = [] := last uploadPartSize_pos
      subst ended
      have whole : stored.flatMap UploadedPart.body = uploadBytes upload := by
        simpa [sourceBytes] using bytes
      rw [uploadParts, if_pos rfl]
      refine wp_completeMultipartUpload log sends whole ⟨fits trivial, ?_⟩
      rw [← whole, ← sends.sending.total]
      exact within
  | case2 progress part source some tooLarge =>
      rw [uploadParts, if_neg some, if_pos tooLarge]
      exact wp_done _ (partsEnd_stable uploadId) sends.own
  | case3 progress part source some room ih =>
      have proper : ∀ s, Sends service upload uploadId progress stored s →
          Proper service upload s
            (.uploadPart service.bucket upload.objectKey uploadId progress.partNumber part) :=
        fun s sends => ⟨rfl, sends.own.opened⟩
      rw [uploadParts, if_neg some, if_neg room]
      refine wp_bind _ _ _ (partsEnd_stable uploadId) (wp_s3 (stablePost_bind _ _
        (partsEnd_stable uploadId)) (Sends.stable uploadId progress stored) sends
        (fun s sends => sends.own.waiting.asks (proper s sends)) ?_ (fun _ _ _ sends _ => sends.own))
      intro log s eTag s' sends executed
      have own := sends.own.request (proper s sends) executed
      refine ⟨?_, fun _ _ => own⟩
      obtain ⟨after, asked, _, sent⟩ := sends.sending.uploadPart service.bucket upload.objectKey part
        (rfl : faultless (.uploadPart progress.partNumber) = .none)
      cases (exec_asked executed).symm.trans asked
      dsimp only
      split
      · exact wp_done _ (partsEnd_stable uploadId) own
      · next next rest read =>
          have takes := readPart_ok nonempty (Nat.zero_le _) read
          refine ih _ next rest read _ ⟨own, sent⟩ (Nat.le_of_not_lt room) takes.nonempty
            takes.bound takes.last ?_ fun fitting => fits (takes.fits_first.mpr fitting)
          have same : next ++ sourceBytes rest = sourceBytes source := takes.bytes
          rw [same, List.flatMap_append, List.append_assoc]
          simpa using bytes

end Parts

/-! ## upload_stream -/

theorem wp_abortMultipartUpload {uploadId : Nat} (log : List (Commit storesInterface))
    (own : Opened service upload uploadId s) :
    wp (callSpec service upload) (abortMultipartUpload service.bucket upload.objectKey uploadId)
      (fun result _ s => result = .ok () ∧ Waiting service upload s) log s := by
  have stable : StablePost (callSpec service upload) fun (result : Except _ Unit) _ s =>
      result = .ok () ∧ Waiting service upload s :=
    fun _ _ s s' others ends => ⟨ends.1, Waiting.stable s s' others ends.2⟩
  have proper : ∀ s, Opened service upload uploadId s →
      Proper service upload s (.abortMultipartUpload service.bucket upload.objectKey uploadId) :=
    fun s own => ⟨rfl, own.opened⟩
  refine wp_handle _ _ _ stable (wp_s3 (stablePost_handle _ _ stable) (Opened.stable uploadId) own
    (fun s own => own.waiting.asks (proper s own)) ?_
    (fun _ s e own _ => wp_pure _ stable ⟨rfl, own.waiting⟩))
  intro log s reply s' own executed
  have waiting := own.waiting.request (proper s own) executed
  exact ⟨⟨rfl, waiting⟩, fun _ _ => wp_pure _ stable ⟨rfl, waiting⟩⟩

/-- The end of `create_multipart_upload`. -/
def CreateEnds (service : ReportService) (upload : OriginalUpload) :
    Post storesInterface Shared Nat
  | .ok uploadId, _, s => Sends service upload uploadId .start [] s
  | .error _, _, s => Waiting service upload s

theorem createEnds_stable : StablePost (callSpec service upload) (CreateEnds service upload) := by
  intro result log s s' others ends
  cases result with
  | ok uploadId => exact Sends.stable uploadId .start [] s s' others ends
  | error e => exact Waiting.stable s s' others ends

theorem wp_createMultipartUpload (log : List (Commit storesInterface))
    (waiting : Waiting service upload s) :
    wp (callSpec service upload)
      (Program.handle (s3 (.createMultipartUpload service.bucket upload.objectKey)) fun e =>
        raise e.ofUpload)
      (CreateEnds service upload) log s := by
  have proper : ∀ s, Proper service upload s
      (.createMultipartUpload service.bucket upload.objectKey) := fun _ => rfl
  refine wp_handle _ _ _ createEnds_stable (wp_s3 (stablePost_handle _ _ createEnds_stable)
    Waiting.stable waiting (fun s waiting => waiting.asks (proper s)) ?_
    (fun _ s e waiting _ => wp_done _ createEnds_stable waiting))
  intro log s uploadId s' waiting executed
  have after := waiting.request (proper s) executed
  refine ⟨?_, fun _ _ => wp_done _ createEnds_stable after⟩
  obtain ⟨sending, _⟩ := sending_start (exec_asked executed)
  obtain ⟨storage, answered, rfl⟩ := exec_s3 executed
  cases answered
  exact ⟨⟨after, Function.update_self _ _ _⟩, sending⟩

theorem wp_multipartUpload {first : Bytes} {rest : List ReadAnswer}
    (log : List (Commit storesInterface)) (waiting : Waiting service upload s)
    (takes : TakesPart upload.source.answers [] rest first) :
    wp (callSpec service upload)
      (multipartUpload service.bucket upload.objectKey service.maxUploadBytes first rest)
      (UploadEnds service upload) log s := by
  refine wp_bind _ _ _ uploadEnds_stable
    (wp_mono _ _ ?_ log s (wp_createMultipartUpload log waiting))
  intro created log s began
  cases created with
  | error e => exact began
  | ok uploadId =>
      refine wp_handle _ _ _ uploadEnds_stable (wp_mono _ _ ?_ log s
        (wp_uploadParts log began (Nat.zero_le _) takes.nonempty takes.bound takes.last takes.bytes
          takes.fits_first.mpr))
      intro result log s ended
      cases result with
      | ok result => exact ended
      | error e =>
          refine wp_bind _ _ _ uploadEnds_stable
            (wp_mono _ _ ?_ log s (wp_abortMultipartUpload log ended))
          intro aborted log s after
          obtain ⟨rfl, waiting⟩ := after
          exact wp_done _ uploadEnds_stable waiting

theorem wp_putEmpty (log : List (Commit storesInterface)) (waiting : Waiting service upload s)
    (empty : uploadBytes upload = []) (complete : Complete service upload) :
    wp (callSpec service upload) (putEmpty service.bucket upload.objectKey)
      (UploadEnds service upload) log s := by
  have proper : ∀ s, Proper service upload s (.putObject service.bucket upload.objectKey []) :=
    fun s => ⟨rfl, complete, empty.symm⟩
  have stable := stablePost_handle (callSpec service upload) (fun e => raise (ofClient e))
    (@uploadEnds_stable service upload)
  refine wp_handle _ _ _ uploadEnds_stable (wp_bind _ _ _ stable (wp_s3 (stablePost_bind _ _ stable)
    Waiting.stable waiting (fun s waiting => waiting.asks (proper s)) ?_
    (fun _ s e waiting _ => wp_done _ uploadEnds_stable waiting)))
  intro log s reply s' waiting executed
  have after := waiting.request (proper s) executed
  refine ⟨wp_pure _ stable ⟨after, complete, ?_, ?_⟩, fun _ _ => wp_done _ uploadEnds_stable after⟩
  · obtain ⟨storage, answered, rfl⟩ := exec_s3 executed
    cases answered
    rw [empty]
    exact Function.update_self _ _ _
  · rw [empty]
    rfl

theorem wp_uploadStream (log : List (Commit storesInterface))
    (waiting : Waiting service upload s) :
    wp (callSpec service upload)
      (uploadStream service.bucket upload.objectKey upload.source.answers service.maxUploadBytes)
      (UploadEnds service upload) log s := by
  unfold uploadStream
  cases read : readPart upload.source.answers [] with
  | error e => exact wp_done _ uploadEnds_stable waiting
  | ok answer =>
      obtain ⟨first, rest⟩ := answer
      have takes := readPart_ok upload.source.nonempty (Nat.zero_le _) read
      dsimp only
      by_cases none : first = []
      · subst none
        have ended : rest = [] := takes.last uploadPartSize_pos
        subst ended
        have empty : uploadBytes upload = [] := takes.bytes.symm
        rw [if_pos rfl]
        refine wp_putEmpty log waiting empty ⟨takes.fits_first.mpr trivial, ?_⟩
        rw [empty]
        exact Nat.zero_le _
      · rw [if_neg none]
        exact wp_multipartUpload log waiting takes

/-! ## register_original -/

/-- The end of a call: its report is registered with its object; or it raises, and nothing
is registered where the upload has failed. -/
def CallEnds (service : ReportService) (upload : OriginalUpload) :
    Post storesInterface Shared Report
  | .ok report, _, s => report = (upload.uploaded service).report ∧ upload ∈ s.uploads ∧
      Complete service upload ∧ Registered s (upload.uploaded service) ∧
      s.storage.objects (uploadObject service upload) = some (uploadBytes upload)
  | .error e, _, s => e.isStorageUnavailable = true ∨ e = .fileTooLarge →
      Unregistered s (uploadObject service upload)

theorem callEnds_stable : StablePost (callSpec service upload) (CallEnds service upload) := by
  intro result log s s' others ends
  cases result with
  | ok report =>
      obtain ⟨same, known, complete, registered, stored⟩ := ends
      exact ⟨same, others.uploads _ known, complete, (others.rows _ rfl).mpr registered,
        others.object.trans stored⟩
  | error e => exact fun failed => others.unregistered (ends failed)

/-- The call has uploaded its object. -/
structure Stored (service : ReportService) (upload : OriginalUpload) (s : Shared) : Prop where
  waiting : Waiting service upload s
  complete : Complete service upload
  stored : s.storage.objects (uploadObject service upload) = some (uploadBytes upload)

theorem Stored.stable : Stable (callSpec service upload) (Stored service upload) :=
  fun s s' others holds =>
    ⟨Waiting.stable s s' others holds.waiting, holds.complete, others.object.trans holds.stored⟩

/-- The call goes on after its transaction has raised. -/
structure Undoing (upload : OriginalUpload) (s : Shared) : Prop where
  known : upload ∈ s.uploads
  numbered : Numbered s

theorem Undoing.stable : Stable (callSpec service upload) (Undoing upload) :=
  fun _ _ others holds => ⟨others.uploads _ holds.known, others.numbered holds.numbered⟩

theorem wp_compensatingDelete (log : List (Commit storesInterface)) (undoing : Undoing upload s) :
    wp (callSpec service upload) (compensatingDelete service.bucket upload.objectKey)
      (fun result _ _ => ∀ e, result = .error e → e = .client .other) log s := by
  have stable : StablePost (callSpec service upload) fun (result : Except _ Unit) _ _ =>
      ∀ e, result = .error e → e = .client .other := fun _ _ _ _ _ ends => ends
  have deleted : StablePost (callSpec service upload) fun (result : Except _ Unit) _ _ =>
      ∀ e, result = .error e → e = .storageUnavailable ∨ e = .client .other :=
    fun _ _ _ _ _ ends => ends
  have translated : ∀ e, Raisable e →
      ofClient e = .storageUnavailable ∨ ofClient e = .client .other := by
    intro e raisable
    obtain ⟨c, rfl⟩ := raisable
    cases c with
    | botoCoreError | clientError => exact Or.inl rfl
    | other => exact Or.inr rfl
  have asked : wp (callSpec service upload) (deleteObject service.bucket upload.objectKey)
      (fun result _ _ => ∀ e, result = .error e → e = .storageUnavailable ∨ e = .client .other)
      log s := by
    have raised : ∀ log s e, Raisable e → wp (callSpec service upload) (raise (ofClient e))
        (fun (result : Except _ Unit) _ _ => ∀ e, result = .error e →
          e = .storageUnavailable ∨ e = .client .other) log s := by
      intro log s e raisable
      refine wp_done _ deleted ?_
      intro e' same
      cases same
      exact translated e raisable
    have proper : ∀ s, Proper service upload s (.deleteObject service.bucket upload.objectKey) :=
      fun _ => rfl
    refine wp_handle _ _ _ deleted (wp_s3 (stablePost_handle _ _ deleted) Undoing.stable undoing
      (fun s undoing => ⟨undoing.known, undoing.numbered, proper s⟩) ?_
      (fun log s e _ raisable => raised log s e raisable))
    intro log s reply s' _ _
    exact ⟨fun _ impossible => (by cases impossible), fun e raisable => raised log s' e raisable⟩
  refine wp_handle _ _ _ stable (wp_mono _ _ ?_ log s asked)
  intro result log s ends
  cases result with
  | ok _ => exact fun _ impossible => by cases impossible
  | error e =>
      dsimp only
      rcases ends e rfl with rfl | rfl
      · exact wp_pure _ stable fun _ impossible => by cases impossible
      · refine wp_done _ stable ?_
        intro e same
        cases same
        rfl

/-- The transaction of the registration, and what follows when it raises. -/
theorem wp_commitReport (log : List (Commit storesInterface)) (stored : Stored service upload s) :
    wp (callSpec service upload)
      (Program.handle (commitReport (upload.uploaded service)) fun _ => do
        let _ ← compensatingDelete service.bucket upload.objectKey
        raise .reportPersistence)
      (CallEnds service upload) log s := by
  have undo : ∀ log s, Undoing upload s → wp (callSpec service upload)
      (do
        let _ ← compensatingDelete service.bucket upload.objectKey
        raise .reportPersistence)
      (CallEnds service upload) log s := by
    intro log s undoing
    refine wp_bind _ _ _ callEnds_stable
      (wp_mono _ _ ?_ log s (wp_compensatingDelete log undoing))
    intro result log s ends
    cases result with
    | ok _ =>
        refine wp_done _ callEnds_stable ?_
        simp [CallEnds, ServiceException.isStorageUnavailable]
    | error e =>
        cases ends e rfl
        simp [CallEnds, ServiceException.isStorageUnavailable]
  have stable := stablePost_handle (callSpec service upload)
    (fun _ => do
      let _ ← compensatingDelete service.bucket upload.objectKey
      raise .reportPersistence)
    (@callEnds_stable service upload)
  refine wp_handle _ _ _ callEnds_stable (wp_then_commit _ _ _ stable Stored.stable stored
    (fun s stored => ⟨stored.waiting.known, stored.waiting.numbered, rfl, stored.complete, stored.stored⟩) ?_
    (fun s e stored _ => undo _ s ⟨stored.waiting.known, stored.waiting.numbered⟩)
    (fun s e stored _ => undo _ s ⟨stored.waiting.known, stored.waiting.numbered⟩))
  intro s reply s' stored executed
  obtain ⟨db, inserted, rfl⟩ := exec_insertReport executed
  refine ⟨wp_pure _ stable ⟨rfl, stored.waiting.known, stored.complete, ?_, stored.stored⟩,
    fun e _ => undo _ _ ⟨stored.waiting.known, stored.waiting.numbered⟩⟩
  refine ⟨(upload.uploaded service).report, ?_, rfl⟩
  rw [Table.find_eq_some, insertReport_rows inserted]
  exact ⟨List.mem_append_right _ (List.mem_singleton_self _), rfl⟩

theorem wp_registerOriginal (log : List (Commit storesInterface))
    (waiting : Waiting service upload s) :
    wp (callSpec service upload) (registerOriginal service upload) (CallEnds service upload) log
      s := by
  refine wp_bind _ _ _ callEnds_stable (wp_mono _ _ ?_ log s (wp_uploadStream log waiting))
  intro result log s ends
  cases result with
  | error e => exact fun _ => Waiting.unregistered ends
  | ok result =>
      obtain ⟨waiting, complete, stored, rfl⟩ := ends
      exact wp_commitReport log ⟨waiting, complete, stored⟩

end Call

end StockImport.Site
