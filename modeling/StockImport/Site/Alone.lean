import StockImport.Site.Uploads

/-!
# A call on its own

The program of `register_original` and the function that does the same in one go agree,
whatever goes wrong.
-/

set_option autoImplicit false

namespace StockImport.Site

open Csv Db Tables Storage Worker Transactional

/-- The same stores; what was asked of the object store is not compared. -/
structure Same (db : Database) (storage : ObjectStore) (s : Shared) : Prop where
  db : s.ledger.db = db
  storage : ∃ asked, s.storage = { storage with requests := asked }

/-- What goes wrong in the requests of a call.  An answer can only be lost where there is
one. -/
def callFaults (faults : UploadFaults) : StoreRequest → Shared → Fault storesInterface
  | .s3 request, s =>
      match faults.client request.call, request.exec s.storage with
      | .none, _ => .none
      | .fails e, _ => .fails (.client e)
      | .unanswered e, none => .fails (.client e)
      | .unanswered e, some _ => .unknown (.client e)
  | .insertReport _, _ =>
      match faults.transaction with
      | .none => .none
      | .fails => .fails .other
      | .unanswered => .unknown .other

/-- The program ends in this way when nobody disturbs it. -/
def Leaves {α : Type} (faults : UploadFaults) (p : StoreProgram α) (s : Shared)
    (result : Except ServiceException α) (db : Database) (storage : ObjectStore) : Prop :=
  ∃ s', p.alone StoreRequest.exec (callFaults faults) s = (result, s') ∧ Same db storage s'

section Alone

variable {upload : OriginalUpload} {faults : UploadFaults} {db : Database} {store after : ObjectStore} {s : Shared}
  {α β : Type}

/-- An answer of the store does not depend on what it was asked before. -/
theorem exec_forgets (request : S3Request) (store : ObjectStore) (asked : List S3Request) :
    request.exec { store with requests := asked } =
      (request.exec store).map fun answer => (answer.1, { answer.2 with requests := asked }) := by
  cases request with
  | putObject | createMultipartUpload | deleteObject => rfl
  | uploadPart bucket key uploadId partNumber body =>
      simp only [S3Request.exec]
      cases store.uploads uploadId with
      | none | some stored => rfl
  | completeMultipartUpload bucket key uploadId parts =>
      simp only [S3Request.exec]
      cases (store.uploads uploadId).bind (joinParts · parts) with
      | none | some body => rfl
  | abortMultipartUpload bucket key uploadId =>
      simp only [S3Request.exec]
      cases store.uploads uploadId with
      | none | some stored => rfl

theorem Leaves.bind_ok {p : StoreProgram α} {f : α → StoreProgram β} {value : α}
    {result : Except ServiceException β} {db' : Database} {last : ObjectStore}
    (first : Leaves faults p s (.ok value) db after)
    (next : ∀ s', Same db after s' → Leaves faults (f value) s' result db' last) :
    Leaves faults (p >>= f) s result db' last := by
  obtain ⟨s', ran, same⟩ := first
  obtain ⟨s'', ran', same'⟩ := next s' same
  exact ⟨s'', (alone_bind_ok ran).trans ran', same'⟩

theorem Leaves.bind_error {p : StoreProgram α} {f : α → StoreProgram β} {e : ServiceException}
    (first : Leaves faults p s (.error e) db after) : Leaves faults (p >>= f) s (.error e) db after := by
  obtain ⟨s', ran, same⟩ := first
  exact ⟨s', alone_bind_error ran, same⟩

theorem Leaves.handle_ok {p : StoreProgram α} {handler : ServiceException → StoreProgram α}
    {value : α} (first : Leaves faults p s (.ok value) db after) :
    Leaves faults (p.handle handler) s (.ok value) db after := by
  obtain ⟨s', ran, same⟩ := first
  exact ⟨s', alone_handle_ok ran, same⟩

theorem Leaves.handle_error {p : StoreProgram α} {handler : ServiceException → StoreProgram α}
    {e : ServiceException} {result : Except ServiceException α} {db' : Database}
    {last : ObjectStore} (first : Leaves faults p s (.error e) db after)
    (next : ∀ s', Same db after s' → Leaves faults (handler e) s' result db' last) :
    Leaves faults (p.handle handler) s result db' last := by
  obtain ⟨s', ran, same⟩ := first
  obtain ⟨s'', ran', same'⟩ := next s' same
  exact ⟨s'', (alone_handle_error ran).trans ran', same'⟩

theorem Leaves.done (result : Except ServiceException α) (same : Same db store s) :
    Leaves faults (.done result) s result db store := ⟨s, rfl, same⟩

/-! ## upload_stream -/

/-- A request of the object store. -/
theorem s3_ends {request : S3Request} {result : Except ClientException request.Reply}
    (same : Same db store s) (asked : faults.client.ask request store = (result, after)) :
    Leaves faults (s3 request) s (result.mapError .client) db after := by
  obtain ⟨ledger, storage, opened, uploads⟩ := s
  obtain ⟨rfl, earlier, known⟩ := same
  dsimp only at known
  subst known
  -- the same answer here, in the call that is executed and when its fault is looked up
  have here := exec_forgets request store (store.requests ++ [request])
  have there := exec_forgets request store (earlier ++ [request])
  have looked := exec_forgets request store earlier
  cases executed : request.exec store with
  | none =>
      simp only [executed, Option.map_none] at here there looked
      cases fault : faults.client request.call with
      | none | fails e | unanswered e =>
          simp only [Client.ask, here, fault, Prod.mk.injEq] at asked
          obtain ⟨rfl, rfl⟩ := asked
          refine ⟨_, ?_, rfl, earlier, rfl⟩
          simp [s3, Program.commit, Program.alone, StoreRequest.exec, callFaults, fault, there,
            looked, Except.mapError]
  | some answer =>
      obtain ⟨reply, changed⟩ := answer
      simp only [executed, Option.map_some] at here there looked
      cases fault : faults.client request.call with
      | none | unanswered e =>
          simp only [Client.ask, here, fault, Prod.mk.injEq] at asked
          obtain ⟨rfl, rfl⟩ := asked
          refine ⟨⟨ledger, { changed with requests := earlier ++ [request] },
            opens request store.nextUploadId opened, uploads⟩, ?_, rfl, _, rfl⟩
          simp [s3, Program.commit, Program.alone, StoreRequest.exec, callFaults, fault, there,
            looked, Except.mapError]
      | fails e =>
          simp only [Client.ask, here, fault, Prod.mk.injEq] at asked
          obtain ⟨rfl, rfl⟩ := asked
          refine ⟨_, ?_, rfl, earlier, rfl⟩
          simp [s3, Program.commit, Program.alone, StoreRequest.exec, callFaults, fault, there,
            looked, Except.mapError]

theorem putEmpty_ends {bucket key : String} {result : Except ServiceException UploadResult}
    (same : Same db store s)
    (ran : Storage.putEmpty faults.client bucket key store = (result, after)) :
    Leaves faults (putEmpty bucket key) s result db after := by
  cases asked : faults.client.ask (.putObject bucket key []) store with
  | mk answer next =>
      have first := s3_ends same asked
      cases answer with
      | ok reply =>
          simp only [Storage.putEmpty, asked] at ran
          cases ran
          exact Leaves.handle_ok (Leaves.bind_ok first fun s' same' => Leaves.done _ same')
      | error e =>
          have raised : Leaves faults (putEmpty bucket key) s (.error (ofClient (.client e))) db next :=
            Leaves.handle_error (Leaves.bind_error first) fun s' same' => Leaves.done _ same'
          cases e with
          | botoCoreError | clientError | other =>
              simp only [Storage.putEmpty, asked] at ran
              cases ran
              exact raised

theorem uploadParts_ends {bucket key : String} {uploadId maxBytes : Nat}
    {progress : UploadProgress} {part : Bytes} {source : List ReadAnswer}
    {result : Except ServiceException UploadResult} (same : Same db store s)
    (ran : Storage.uploadParts faults.client bucket key uploadId maxBytes progress part source
      store = (result, after)) :
    Leaves faults (uploadParts bucket key uploadId maxBytes progress part source) s result db
      after := by
  induction progress, part, source, store using
      Storage.uploadParts.induct faults.client bucket key uploadId maxBytes generalizing s with
  | case1 progress source store e next asked =>
      rw [Storage.uploadParts, if_pos rfl, asked] at ran
      cases ran
      rw [uploadParts, if_pos rfl]
      exact Leaves.bind_error (s3_ends same asked)
  | case2 progress source store next asked =>
      rw [Storage.uploadParts, if_pos rfl, asked] at ran
      cases ran
      rw [uploadParts, if_pos rfl]
      exact Leaves.bind_ok (s3_ends same asked) fun s' same' => Leaves.done _ same'
  | case3 progress part source store more tooLarge =>
      rw [Storage.uploadParts, if_neg more, if_pos tooLarge] at ran
      cases ran
      rw [uploadParts, if_neg more, if_pos tooLarge]
      exact Leaves.done _ same
  | case4 progress part source store more fits e next asked =>
      rw [Storage.uploadParts, if_neg more, if_neg fits, asked] at ran
      cases ran
      rw [uploadParts, if_neg more, if_neg fits]
      exact Leaves.bind_error (s3_ends same asked)
  | case5 progress part source store more fits eTag next asked e read =>
      have stopped : Storage.uploadParts faults.client bucket key uploadId maxBytes progress part
          source store = (.error e, next) := by
        rw [Storage.uploadParts, if_neg more, if_neg fits, asked]
        dsimp only
        split
        · next raised =>
            cases read.symm.trans raised
            rfl
        · next taken => cases read.symm.trans taken
      cases stopped.symm.trans ran
      rw [uploadParts, if_neg more, if_neg fits]
      refine Leaves.bind_ok (s3_ends same asked) fun s' same' => ?_
      split
      · next raised =>
          cases read.symm.trans raised
          exact Leaves.done _ same'
      · next taken => cases read.symm.trans taken
  | case6 progress part source store more fits eTag next asked following rest read ih =>
      have onwards : Storage.uploadParts faults.client bucket key uploadId maxBytes progress part
          source store = Storage.uploadParts faults.client bucket key uploadId maxBytes
            ⟨progress.totalSize + part.length, progress.checksum.update part,
              progress.parts ++ [(eTag, progress.partNumber)], progress.partNumber + 1⟩
            following rest next := by
        rw [Storage.uploadParts, if_neg more, if_neg fits, asked]
        dsimp only
        split
        · next raised => cases read.symm.trans raised
        · next taken =>
            cases read.symm.trans taken
            rfl
      rw [uploadParts, if_neg more, if_neg fits]
      refine Leaves.bind_ok (s3_ends same asked) fun s' same' => ?_
      split
      · next raised => cases read.symm.trans raised
      · next taken =>
          cases read.symm.trans taken
          exact ih same' (onwards.symm.trans ran)

theorem abortMultipartUpload_ends {bucket key : String} {uploadId : Nat} (same : Same db store s) :
    Leaves faults (abortMultipartUpload bucket key uploadId) s (.ok ()) db
      (Storage.abortMultipartUpload faults.client bucket key uploadId store) := by
  cases asked : faults.client.ask (.abortMultipartUpload bucket key uploadId) store with
  | mk answer next =>
      have first := s3_ends same asked
      rw [Storage.abortMultipartUpload, asked]
      cases answer with
      | ok reply => exact Leaves.handle_ok first
      | error e => exact Leaves.handle_error first fun s' same' => Leaves.done _ same'

theorem multipartUpload_ends {bucket key : String} {maxBytes : Nat} {firstPart : Bytes}
    {source : List ReadAnswer} {result : Except ServiceException UploadResult}
    (same : Same db store s)
    (ran : Storage.multipartUpload faults.client bucket key maxBytes firstPart source store =
      (result, after)) :
    Leaves faults (multipartUpload bucket key maxBytes firstPart source) s result db after := by
  cases asked : faults.client.ask (.createMultipartUpload bucket key) store with
  | mk answer next =>
      have first := s3_ends same asked
      simp only [Storage.multipartUpload, asked] at ran
      cases answer with
      | error e =>
          cases ran
          exact Leaves.bind_error (Leaves.handle_error first fun s' same' => Leaves.done _ same')
      | ok uploadId =>
          refine Leaves.bind_ok (Leaves.handle_ok first) fun s' same' => ?_
          dsimp only at ran
          split at ran
          · next e last parts =>
              cases ran
              refine Leaves.handle_error (uploadParts_ends same' parts) fun s' same' => ?_
              exact Leaves.bind_ok (abortMultipartUpload_ends same') fun s' same' => Leaves.done _ same'
          · next value last parts =>
              cases ran
              exact Leaves.handle_ok (uploadParts_ends same' parts)

theorem uploadStream_ends {bucket key : String} {maxBytes : Nat} {source : List ReadAnswer}
    {result : Except ServiceException UploadResult} (same : Same db store s)
    (ran : Storage.uploadStream faults.client bucket key source maxBytes store = (result, after)) :
    Leaves faults (uploadStream bucket key source maxBytes) s result db after := by
  unfold uploadStream
  cases read : readPart source [] with
  | error e =>
      simp only [Storage.uploadStream, read] at ran
      cases ran
      exact Leaves.done _ same
  | ok taken =>
      simp only [Storage.uploadStream, read] at ran
      by_cases empty : taken.1 = []
      · rw [if_pos empty] at ran
        simp only [if_pos empty]
        exact putEmpty_ends same ran
      · rw [if_neg empty] at ran
        simp only [if_neg empty]
        exact multipartUpload_ends same ran

/-! ## register_original -/

theorem compensatingDelete_ends {bucket key : String} {result : Except ServiceException Unit}
    (same : Same db store s)
    (ran : Storage.compensatingDelete faults.client bucket key store = (result, after)) :
    Leaves faults (compensatingDelete bucket key) s result db after := by
  cases asked : faults.client.ask (.deleteObject bucket key) store with
  | mk answer next =>
      have first := s3_ends same asked
      cases answer with
      | ok reply =>
          simp only [Storage.compensatingDelete, asked] at ran
          cases ran
          exact Leaves.handle_ok (Leaves.handle_ok first)
      | error e =>
          have raised : Leaves faults (deleteObject bucket key) s (.error (ofClient (.client e))) db
              next := Leaves.handle_error first fun s' same' => Leaves.done _ same'
          cases e with
          | botoCoreError | clientError | other =>
              simp only [Storage.compensatingDelete, asked] at ran
              cases ran
              exact Leaves.handle_error raised fun s' same' => Leaves.done _ same'

theorem commitReport_ends {registration : Registration} {returns : Bool} {db' : Database}
    (same : Same db store s)
    (committed : Storage.commitReport faults.transaction registration db = (returns, db')) :
    Leaves faults (commitReport registration) s
      (if returns = true then .ok registration.report else .error .other) db' store := by
  obtain ⟨ledger, storage, opened, uploads⟩ := s
  obtain ⟨rfl, known⟩ := same
  have insert : (Program.commit (i := storesInterface) (.insertReport registration)).alone
      StoreRequest.exec (callFaults faults) ⟨ledger, storage, opened, uploads⟩ =
      (if returns = true then .ok () else .error .other,
        ⟨{ ledger with db := db' }, storage, opened, uploads⟩) := by
    cases fault : faults.transaction with
    | none | fails | unanswered =>
        cases inserted : insertReport registration ledger.db with
        | none | some inserted =>
            simp only [Storage.commitReport, fault, inserted, Prod.mk.injEq] at committed
            obtain ⟨rfl, rfl⟩ := committed
            simp [Program.commit, Program.alone, StoreRequest.exec, callFaults, fault, inserted]
  refine ⟨⟨{ ledger with db := db' }, storage, opened, uploads⟩, ?_, rfl, known⟩
  cases returns with
  | false => exact alone_bind_error insert
  | true => exact alone_bind_ok insert

/-- Alone, the program of a call does what the function does: the same result, the same
rows and the same objects. -/
theorem registerOriginal_alone {service : ReportService} {stores stores' : Stores}
    {result : Except ServiceException Report} (same : Same stores.db stores.storage s)
    (ran : Storage.registerOriginal service upload faults stores = (result, stores')) :
    Leaves faults (registerOriginal service upload) s result stores'.db stores'.storage := by
  cases streamed : Storage.uploadStream faults.client service.bucket upload.objectKey
      upload.source.answers service.maxUploadBytes stores.storage with
  | mk answer storage =>
      have first := uploadStream_ends same streamed
      simp only [Storage.registerOriginal, streamed] at ran
      cases answer with
      | error e =>
          cases ran
          exact Leaves.bind_error first
      | ok value =>
          refine Leaves.bind_ok first fun s' same' => ?_
          cases committed : Storage.commitReport faults.transaction
              (upload.registration service value) stores.db with
          | mk returns db' =>
              have second := commitReport_ends same' committed
              simp only [committed] at ran
              cases returns with
              | true =>
                  cases ran
                  exact Leaves.handle_ok second
              | false =>
                  refine Leaves.handle_error second fun s' same' => ?_
                  cases deleted : Storage.compensatingDelete faults.client service.bucket
                      upload.objectKey storage with
                  | mk answer last =>
                      have third := compensatingDelete_ends same' deleted
                      simp only [deleted] at ran
                      cases answer with
                      | error e =>
                          cases ran
                          exact Leaves.bind_error third
                      | ok reply =>
                          cases ran
                          exact Leaves.bind_ok third fun s' same' => Leaves.done _ same'

/-- A call that is left alone in the middle of all others, from its first request to its
last, is the function. -/
theorem registerOriginal_finishes {Name : Type} [DecidableEq Name] {name : Name}
    {pool : Pool storesInterface OriginalUpload Name Report} {service : ReportService}
    {stores stores' : Stores} {result : Except ServiceException Report}
    (started : pool name = some (.start upload (registerOriginal service upload)))
    (same : Same stores.db stores.storage s)
    (ran : Storage.registerOriginal service upload faults stores = (result, stores')) :
    ∃ s', pool.Finishes StoreRequest.exec name s upload (result, s') ∧
      Same stores'.db stores'.storage s' := by
  obtain ⟨s', alone, same'⟩ := registerOriginal_alone same ran
  have finished : pool.Finishes StoreRequest.exec name s upload
      ((registerOriginal service upload).alone StoreRequest.exec (callFaults faults) s) :=
    alone_finishes name upload 0 _ [] pool s started
  exact ⟨s', alone ▸ finished, same'⟩

end Alone

end StockImport.Site
