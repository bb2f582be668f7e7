import StockImport.Library.Sha256
import StockImport.Storage.ObjectStore

/-!
# Upload

`S3ObjectStorage.upload_stream` on a source of which every `read` returns a chunk
or raises.  The loop over the parts keeps what it has sent: the parts in the store,
their list, the size and the digest say the same.
-/

set_option autoImplicit false

namespace StockImport.Storage

open Csv

inductive ServiceException where
  | fileTooLarge
  | storageUnavailable
  | objectNotFound
  | reportPersistence
  | client (e : ClientException)
  | other
  deriving DecidableEq, Repr

/-- `isinstance(exc, StorageUnavailableError)`. -/
def ServiceException.isStorageUnavailable : ServiceException → Bool
  | .storageUnavailable => true
  | .objectNotFound => true
  | _ => false

def uploadPartSize : Nat := 8 * 1024 * 1024

theorem uploadPartSize_pos : 0 < uploadPartSize := by decide

structure UploadResult where
  sizeBytes : Nat
  checksumSha256 : String
  deriving DecidableEq, Repr

/-! ## The source -/

/-- What one `read` of the source gives. -/
inductive ReadAnswer where
  | returns (chunk : Bytes)
  | raises (e : ServiceException)
  deriving DecidableEq, Repr

/-- The answers of the reads of a source in turn; after them it has ended, and every
read returns `b""`. -/
structure ReadableStream where
  answers : List ReadAnswer
  nonempty : ReadAnswer.returns [] ∉ answers

/-- The bytes of a source up to its end, or up to a read that raises. -/
def sourceBytes : List ReadAnswer → Bytes
  | [] => []
  | .returns chunk :: rest => chunk ++ sourceBytes rest
  | .raises _ :: _ => []

/-- No read raises or returns more than is asked for, where `room` bytes are left in
the part. -/
def Fits : (room : Nat) → List ReadAnswer → Prop
  | _, [] => True
  | _, .raises _ :: _ => False
  | room, .returns chunk :: rest =>
      chunk.length ≤ (if room = 0 then uploadPartSize else room) ∧
        Fits ((if room = 0 then uploadPartSize else room) - chunk.length) rest

/-- `_read_part`, with what is read so far. -/
def readPart : List ReadAnswer → Bytes → Except ServiceException (Bytes × List ReadAnswer)
  | [], part => .ok (part, [])
  | answer :: rest, part =>
      if uploadPartSize ≤ part.length then .ok (part, answer :: rest)
      else
        match answer with
        | .raises e => .error e
        | .returns chunk =>
            if chunk = [] then .ok (part, rest)
            else if uploadPartSize - part.length < chunk.length then .error .storageUnavailable
            else readPart rest (part ++ chunk)

theorem readPart_length {answers rest : List ReadAnswer} {part taken : Bytes}
    (read : readPart answers part = .ok (taken, rest)) :
    rest.length ≤ answers.length ∧ (taken ≠ part → rest.length < answers.length) := by
  induction answers generalizing part with
  | nil =>
      cases read
      exact ⟨Nat.le_refl _, fun different => absurd rfl different⟩
  | cons answer answers ih =>
      simp only [readPart] at read
      split at read
      · cases read
        exact ⟨Nat.le_refl _, fun different => absurd rfl different⟩
      · cases answer with
        | raises e => cases read
        | returns chunk =>
            dsimp only at read
            split at read
            · cases read
              exact ⟨Nat.le_succ _, fun different => absurd rfl different⟩
            · split at read
              · cases read
              · have less := Nat.lt_succ_of_le (ih read).1
                exact ⟨Nat.le_of_lt less, fun _ => less⟩

/-! ## upload_stream -/

/-- The variables of the loop over the parts. -/
structure UploadProgress where
  totalSize : Nat
  checksum : Sha256.Hasher
  parts : List (String × Nat)
  partNumber : Nat

def UploadProgress.start : UploadProgress := ⟨0, .new, [], 1⟩

/-- `while part`, and `complete_multipart_upload` after it. -/
def uploadParts (client : Client) (bucket key : String) (uploadId maxBytes : Nat)
    (progress : UploadProgress) (part : Bytes) (source : List ReadAnswer) (store : ObjectStore) :
    Except ServiceException UploadResult × ObjectStore :=
  if part = [] then
    match client.ask (.completeMultipartUpload bucket key uploadId progress.parts) store with
    | (.error e, store) => (.error (.client e), store)
    | (.ok (), store) => (.ok ⟨progress.totalSize, progress.checksum.hexdigest⟩, store)
  else if maxBytes < progress.totalSize + part.length then (.error .fileTooLarge, store)
  else
    match client.ask (.uploadPart bucket key uploadId progress.partNumber part) store with
    | (.error e, store) => (.error (.client e), store)
    | (.ok eTag, store) =>
        match read : readPart source [] with
        | .error e => (.error e, store)
        | .ok (next, rest) =>
            uploadParts client bucket key uploadId maxBytes
              ⟨progress.totalSize + part.length, progress.checksum.update part,
                progress.parts ++ [(eTag, progress.partNumber)], progress.partNumber + 1⟩
              next rest store
termination_by if part = [] then 0 else source.length + 1
decreasing_by
  have shorter := (readPart_length read).2
  split
  · exact Nat.succ_pos _
  · next more => exact Nat.succ_lt_succ (shorter more)

/-- `_abort_multipart_upload`, which lets no exception out. -/
def abortMultipartUpload (client : Client) (bucket key : String) (uploadId : Nat)
    (store : ObjectStore) : ObjectStore :=
  (client.ask (.abortMultipartUpload bucket key uploadId) store).2

/-- What `upload_stream` raises for an exception of the multipart upload. -/
def ServiceException.ofUpload (e : ServiceException) : ServiceException :=
  if e = .fileTooLarge ∨ e.isStorageUnavailable = true then e else .storageUnavailable

/-- `put_object` for a source without a byte. -/
def putEmpty (client : Client) (bucket key : String) (store : ObjectStore) :
    Except ServiceException UploadResult × ObjectStore :=
  match client.ask (.putObject bucket key []) store with
  | (.error .other, store) => (.error (.client .other), store)
  | (.error _, store) => (.error .storageUnavailable, store)
  | (.ok (), store) => (.ok ⟨0, Sha256.Hasher.new.hexdigest⟩, store)

/-- `upload_stream` from `upload_id = None` on. -/
def multipartUpload (client : Client) (bucket key : String) (maxBytes : Nat) (firstPart : Bytes)
    (source : List ReadAnswer) (store : ObjectStore) :
    Except ServiceException UploadResult × ObjectStore :=
  match client.ask (.createMultipartUpload bucket key) store with
  | (.error e, store) => (.error (ServiceException.client e).ofUpload, store)
  | (.ok uploadId, store) =>
      match uploadParts client bucket key uploadId maxBytes .start firstPart source store with
      | (.error e, store) =>
          (.error e.ofUpload, abortMultipartUpload client bucket key uploadId store)
      | (.ok result, store) => (.ok result, store)

def uploadStream (client : Client) (bucket key : String) (source : List ReadAnswer)
    (maxBytes : Nat) (store : ObjectStore) : Except ServiceException UploadResult × ObjectStore :=
  match readPart source [] with
  | .error e => (.error e, store)
  | .ok (firstPart, source) =>
      if firstPart = [] then putEmpty client bucket key store
      else multipartUpload client bucket key maxBytes firstPart source store

section Source

variable {answers rest : List ReadAnswer} {part taken : Bytes}

theorem fits_zero : Fits 0 answers ↔ Fits uploadPartSize answers := by
  cases answers with
  | nil => rfl
  | cons answer rest =>
      cases answer with
      | raises e => rfl
      | returns chunk => simp [Fits, Nat.ne_of_gt uploadPartSize_pos]

/-- What a part takes from the source. -/
structure TakesPart (answers : List ReadAnswer) (part : Bytes) (rest : List ReadAnswer)
    (taken : Bytes) : Prop where
  bytes : taken ++ sourceBytes rest = part ++ sourceBytes answers
  bound : taken.length ≤ uploadPartSize
  last : taken.length < uploadPartSize → rest = []
  fits : Fits (uploadPartSize - part.length) answers ↔ Fits uploadPartSize rest
  nonempty : ReadAnswer.returns [] ∉ rest
  longer : part.length ≤ taken.length

theorem readPart_ok (nonempty : ReadAnswer.returns [] ∉ answers)
    (bound : part.length ≤ uploadPartSize) (read : readPart answers part = .ok (taken, rest)) :
    TakesPart answers part rest taken := by
  induction answers generalizing part with
  | nil =>
      cases read
      exact ⟨rfl, bound, fun _ => rfl, Iff.rfl, nonempty, Nat.le_refl _⟩
  | cons answer answers ih =>
      simp only [readPart] at read
      split at read
      · next full =>
          have room : uploadPartSize - part.length = 0 := Nat.sub_eq_zero_of_le full
          cases read
          exact ⟨rfl, bound, fun less => absurd full (Nat.not_le_of_lt less),
            by rw [room, fits_zero], nonempty, Nat.le_refl _⟩
      · next unfilled =>
          cases answer with
          | raises e => cases read
          | returns chunk =>
              have some : chunk ≠ [] := by
                rintro rfl
                exact nonempty List.mem_cons_self
              have fewer : ReadAnswer.returns [] ∉ answers :=
                fun member => nonempty (List.mem_cons_of_mem _ member)
              simp only [some, if_false] at read
              split at read
              · cases read
              · next fits =>
                  have takes := ih fewer (by rw [List.length_append]; omega) read
                  have room : uploadPartSize - part.length ≠ 0 := by omega
                  have left : uploadPartSize - part.length - chunk.length =
                      uploadPartSize - (part ++ chunk).length := by
                    rw [List.length_append]
                    omega
                  have longer := takes.longer
                  have positive : 0 < chunk.length := List.length_pos_iff.mpr some
                  rw [List.length_append] at longer
                  refine ⟨?_, takes.bound, takes.last, ?_, takes.nonempty, by omega⟩
                  · rw [takes.bytes, sourceBytes, List.append_assoc]
                  · simp only [Fits, room, if_false, left, takes.fits, and_iff_right_iff_imp]
                    intro _
                    omega

theorem readPart_error {e : ServiceException} (nonempty : ReadAnswer.returns [] ∉ answers)
    (read : readPart answers part = .error e) : ¬ Fits (uploadPartSize - part.length) answers := by
  induction answers generalizing part with
  | nil => cases read
  | cons answer answers ih =>
      simp only [readPart] at read
      split at read
      · cases read
      · next unfilled =>
          cases answer with
          | raises e => exact id
          | returns chunk =>
              have some : chunk ≠ [] := by
                rintro rfl
                exact nonempty List.mem_cons_self
              have room : uploadPartSize - part.length ≠ 0 := by omega
              simp only [some, if_false] at read
              simp only [Fits, room, if_false, not_and]
              intro enough
              split at read
              · omega
              · have left : uploadPartSize - part.length - chunk.length =
                    uploadPartSize - (part ++ chunk).length := by
                  rw [List.length_append]
                  omega
                rw [left]
                exact ih (fun member => nonempty (List.mem_cons_of_mem _ member)) read

/-- A part that is read from its beginning. -/
theorem TakesPart.fits_first (takes : TakesPart answers [] rest taken) :
    Fits uploadPartSize answers ↔ Fits uploadPartSize rest := by
  have fits := takes.fits
  rw [List.length_nil, Nat.sub_zero] at fits
  exact fits

theorem readPart_error_first {e : ServiceException} (nonempty : ReadAnswer.returns [] ∉ answers)
    (read : readPart answers [] = .error e) : ¬ Fits uploadPartSize answers := by
  have unfit := readPart_error nonempty read
  rw [List.length_nil, Nat.sub_zero] at unfit
  exact unfit

end Source

/-! ## The loop over the parts -/

/-- How many parts so many bytes fill. -/
def partCount (size : Nat) : Nat := (size + uploadPartSize - 1) / uploadPartSize

theorem partCount_zero : partCount 0 = 0 := by
  have positive := uploadPartSize_pos
  exact Nat.div_eq_of_lt (by omega)

theorem partCount_part {size rest : Nat} (some : 0 < size) (bound : size ≤ uploadPartSize)
    (last : size < uploadPartSize → rest = 0) : partCount (size + rest) = partCount rest + 1 := by
  have positive := uploadPartSize_pos
  unfold partCount
  by_cases full : size = uploadPartSize
  · have sum : size + rest + uploadPartSize - 1 = rest + uploadPartSize - 1 + uploadPartSize := by
      omega
    rw [sum, Nat.add_div_right _ positive]
  · have none : rest = 0 := last (by omega)
    have sum : size + rest + uploadPartSize - 1 = size - 1 + uploadPartSize := by omega
    rw [sum, Nat.add_div_right _ positive, none, Nat.div_eq_of_lt (by omega),
      Nat.div_eq_of_lt (by omega)]

/-- The parts in the store, and what the loop knows of them. -/
structure Sending (store : ObjectStore) (uploadId : Nat) (progress : UploadProgress)
    (stored : List UploadedPart) : Prop where
  uploads : store.uploads uploadId = some stored
  parts : progress.parts = stored.map UploadedPart.entry
  numbers : stored.map UploadedPart.partNumber = List.range' 1 stored.length
  number : progress.partNumber = stored.length + 1
  total : progress.totalSize = (stored.flatMap UploadedPart.body).length
  checksum : progress.checksum = ⟨stored.flatMap UploadedPart.body⟩

section Loop

variable {client : Client} {bucket key : String} {uploadId maxBytes : Nat}
  {progress : UploadProgress} {store : ObjectStore} {stored : List UploadedPart}
  {part : Bytes} {source : List ReadAnswer}

theorem Sending.uploadPart (bucket key : String) (part : Bytes)
    (sending : Sending store uploadId progress stored)
    (faultless : client (.uploadPart progress.partNumber) = .none) :
    ∃ after, client.ask (.uploadPart bucket key uploadId progress.partNumber part) store =
        (.ok (eTagOf progress.partNumber), after) ∧ after.objects = store.objects ∧
      Sending after uploadId
        ⟨progress.totalSize + part.length, progress.checksum.update part,
          progress.parts ++ [(eTagOf progress.partNumber, progress.partNumber)],
          progress.partNumber + 1⟩
        (stored ++ [⟨eTagOf progress.partNumber, progress.partNumber, part⟩]) := by
  obtain ⟨uploads, parts, numbers, number, total, checksum⟩ := sending
  have fresh : ∀ other ∈ stored, other.partNumber ≠ progress.partNumber := by
    intro other member
    have inRange : other.partNumber ∈ List.range' 1 stored.length :=
      numbers ▸ List.mem_map_of_mem member
    rw [List.mem_range'_1] at inRange
    omega
  refine ⟨_, ask_ok faultless (exec_uploadPart uploads fresh), rfl, ?_, ?_, ?_, ?_, ?_, ?_⟩
  · exact Function.update_self _ _ _
  · rw [parts, List.map_append]
    rfl
  · rw [List.map_append, numbers, List.length_append, List.length_singleton, List.range'_1_concat]
    simp [number, Nat.add_comm]
  · rw [List.length_append, number, List.length_singleton]
  · rw [List.flatMap_append, List.length_append, total]
    simp
  · rw [checksum]
    simp [Sha256.Hasher.update]

theorem Sending.complete (bucket key : String) (sending : Sending store uploadId progress stored)
    (faultless : client .completeMultipartUpload = .none) :
    ∃ after, client.ask (.completeMultipartUpload bucket key uploadId progress.parts) store =
        (.ok (), after) ∧
      after.objects = Function.update store.objects (bucket, key)
        (some (stored.flatMap UploadedPart.body)) := by
  have distinct : (stored.map UploadedPart.partNumber).Nodup := by
    rw [sending.numbers]
    exact List.nodup_range'
  have joined : joinParts stored progress.parts = some (stored.flatMap UploadedPart.body) :=
    sending.parts ▸ joinParts_all distinct
  exact ⟨_, ask_ok faultless (exec_completeMultipartUpload sending.uploads joined), rfl⟩

/-- Nothing is in the way of the parts from `part` on. -/
structure PartsGoThrough (client : Client) (maxBytes : Nat) (progress : UploadProgress)
    (part : Bytes) (source : List ReadAnswer) : Prop where
  fits : Fits uploadPartSize source
  size : progress.totalSize + (part ++ sourceBytes source).length ≤ maxBytes
  parts : ∀ n < partCount (part ++ sourceBytes source).length,
    client (.uploadPart (progress.partNumber + n)) = .none
  complete : client .completeMultipartUpload = .none

/-- The object with its size and digest where nothing is in the way, and an exception
where something is. -/
def Uploaded (goesThrough : Prop) (object : String × String) (bytes : Bytes) (store : ObjectStore) :
    Except ServiceException UploadResult × ObjectStore → Prop
  | (.ok result, after) => goesThrough ∧ result = ⟨bytes.length, Sha256.hexdigest bytes⟩ ∧
      after.objects = Function.update store.objects object (some bytes)
  | (.error _, _) => ¬ goesThrough

/-- A part that the store has taken. -/
theorem uploadParts_next {eTag : String} {after : ObjectStore} (some : part ≠ [])
    (fits : ¬ maxBytes < progress.totalSize + part.length)
    (asked : client.ask (.uploadPart bucket key uploadId progress.partNumber part) store =
      (.ok eTag, after)) :
    uploadParts client bucket key uploadId maxBytes progress part source store =
      match readPart source [] with
      | .error e => (.error e, after)
      | .ok (next, rest) =>
          uploadParts client bucket key uploadId maxBytes
            ⟨progress.totalSize + part.length, progress.checksum.update part,
              progress.parts ++ [(eTag, progress.partNumber)], progress.partNumber + 1⟩
            next rest after := by
  rw [uploadParts, if_neg some, if_neg fits, asked]
  dsimp only
  split
  · next read => simp only [read]
  · next read => simp only [read]

theorem Uploaded.congr {through through' : Prop} {object : String × String} {bytes : Bytes}
    {store store' : ObjectStore} {ends : Except ServiceException UploadResult × ObjectStore}
    (uploaded : Uploaded through' object bytes store' ends) (same : through ↔ through')
    (objects : store'.objects = store.objects) : Uploaded through object bytes store ends := by
  obtain ⟨result, after⟩ := ends
  cases result with
  | ok result => exact ⟨same.mpr uploaded.1, uploaded.2.1, objects ▸ uploaded.2.2⟩
  | error e => exact fun holds => uploaded (same.mp holds)

theorem partCount_append (some : part ≠ []) (bound : part.length ≤ uploadPartSize)
    (last : part.length < uploadPartSize → source = []) :
    partCount (part ++ sourceBytes source).length = partCount (sourceBytes source).length + 1 := by
  rw [List.length_append]
  refine partCount_part (List.length_pos_iff.mpr some) bound fun less => ?_
  rw [last less]
  rfl

/-- One part is sent, and the next one is read. -/
theorem PartsGoThrough.next {rest : List ReadAnswer} {next : Bytes} {eTag : String}
    (some : part ≠ []) (bound : part.length ≤ uploadPartSize)
    (last : part.length < uploadPartSize → source = [])
    (faultless : client (.uploadPart progress.partNumber) = .none)
    (takes : TakesPart source [] rest next) :
    PartsGoThrough client maxBytes progress part source ↔
      PartsGoThrough client maxBytes
        ⟨progress.totalSize + part.length, progress.checksum.update part,
          progress.parts ++ [(eTag, progress.partNumber)], progress.partNumber + 1⟩ next rest := by
  have bytes : next ++ sourceBytes rest = sourceBytes source := takes.bytes
  have fits := takes.fits_first
  have count := partCount_append some bound last
  constructor
  · rintro ⟨fitting, size, parts, complete⟩
    refine ⟨fits.mp fitting, ?_, ?_, complete⟩
    · rw [bytes, Nat.add_assoc, ← List.length_append]
      exact size
    · intro n less
      rw [bytes] at less
      rw [Nat.add_assoc, Nat.add_comm 1 n]
      exact parts (n + 1) (by omega)
  · rintro ⟨fitting, size, parts, complete⟩
    rw [bytes, Nat.add_assoc, ← List.length_append] at size
    rw [bytes] at parts
    refine ⟨fits.mpr fitting, size, ?_, complete⟩
    intro n less
    cases n with
    | zero => exact faultless
    | succ n =>
        have later := parts n (by omega)
        rw [Nat.add_assoc, Nat.add_comm 1 n] at later
        exact later

theorem uploadParts_uploaded (sending : Sending store uploadId progress stored)
    (within : progress.totalSize ≤ maxBytes) (nonempty : ReadAnswer.returns [] ∉ source)
    (bound : part.length ≤ uploadPartSize) (last : part.length < uploadPartSize → source = []) :
    Uploaded (PartsGoThrough client maxBytes progress part source) (bucket, key)
      (stored.flatMap UploadedPart.body ++ (part ++ sourceBytes source)) store
      (uploadParts client bucket key uploadId maxBytes progress part source store) := by
  induction progress, part, source, store using
    uploadParts.induct client bucket key uploadId maxBytes generalizing stored with
  | case1 progress source store e after asked =>
      -- the completion raises
      rw [uploadParts, if_pos rfl, asked]
      intro through
      obtain ⟨_, completed, _⟩ := sending.complete bucket key through.complete
      cases asked.symm.trans completed
  | case2 progress source store after asked =>
      obtain ⟨_, completed, objects⟩ :=
        sending.complete bucket key (ask_faultless asked)
      cases asked.symm.trans completed
      have ended : source = [] := last uploadPartSize_pos
      subst ended
      rw [uploadParts, if_pos rfl, asked]
      refine ⟨⟨trivial, ?_, ?_, ask_faultless asked⟩, ?_, ?_⟩
      · simpa [sourceBytes] using within
      · intro n less
        simp [sourceBytes, partCount_zero] at less
      · simp [sourceBytes, sending.total, sending.checksum, Sha256.Hasher.hexdigest]
      · simpa [sourceBytes] using objects
  | case3 progress part source store some tooLarge =>
      rw [uploadParts, if_neg some, if_pos tooLarge]
      intro through
      have size := through.size
      rw [List.length_append] at size
      omega
  | case4 progress part source store some fits e after asked =>
      rw [uploadParts, if_neg some, if_neg fits, asked]
      intro through
      have faultless := through.parts 0 (by rw [partCount_append some bound last]; exact Nat.succ_pos _)
      obtain ⟨_, answered, _⟩ :=
        sending.uploadPart bucket key part faultless
      cases asked.symm.trans answered
  | case5 progress part source store some fits eTag after asked e read =>
      rw [uploadParts_next some fits asked, read]
      intro through
      exact readPart_error_first nonempty read through.fits
  | case6 progress part source store some fits eTag after asked next rest read ih =>
      have faultless := ask_faultless asked
      obtain ⟨_, answered, objects, sent⟩ :=
        sending.uploadPart bucket key part faultless
      cases asked.symm.trans answered
      have takes := readPart_ok nonempty (Nat.zero_le _) read
      have bytes : next ++ sourceBytes rest = sourceBytes source := takes.bytes
      have uploaded := ih sent (Nat.le_of_not_lt fits) takes.nonempty takes.bound takes.last
      rw [uploadParts_next some fits asked, read]
      rw [bytes, List.flatMap_append, List.append_assoc] at uploaded
      simp only [List.flatMap_cons, List.flatMap_nil, List.append_nil] at uploaded
      exact uploaded.congr (PartsGoThrough.next some bound last faultless takes) objects

/-- An upload touches no other object. -/
theorem uploadParts_objects :
    ∀ object, object ≠ (bucket, key) →
      (uploadParts client bucket key uploadId maxBytes progress part source store).2.objects object =
        store.objects object := by
  intro object different
  have asked_objects : ∀ (request : S3Request) (store after : ObjectStore) (result : _),
      request.object = (bucket, key) → client.ask request store = (result, after) →
        after.objects object = store.objects object := by
    intro request store after result same asked
    have kept := ask_objects client request store object (same ▸ different)
    rw [asked] at kept
    exact kept
  induction progress, part, source, store using
    uploadParts.induct client bucket key uploadId maxBytes with
  | case1 progress source store e after asked =>
      rw [uploadParts, if_pos rfl, asked]
      exact asked_objects _ _ _ _ rfl asked
  | case2 progress source store after asked =>
      rw [uploadParts, if_pos rfl, asked]
      exact asked_objects _ _ _ _ rfl asked
  | case3 progress part source store some tooLarge =>
      rw [uploadParts, if_neg some, if_pos tooLarge]
  | case4 progress part source store some fits e after asked =>
      rw [uploadParts, if_neg some, if_neg fits, asked]
      exact asked_objects _ _ _ _ rfl asked
  | case5 progress part source store some fits eTag after asked e read =>
      rw [uploadParts_next some fits asked, read]
      exact asked_objects _ _ _ _ rfl asked
  | case6 progress part source store some fits eTag after asked next rest read ih =>
      rw [uploadParts_next some fits asked, read]
      exact ih.trans (asked_objects _ _ _ _ rfl asked)

end Loop

/-! ## The whole upload -/

/-- The calls of an upload of so many bytes that nothing stops. -/
def uploadCalls (size : Nat) : List S3Call :=
  if size = 0 then [.putObject]
  else .createMultipartUpload ::
    ((List.range (partCount size)).map fun n => .uploadPart (n + 1)) ++ [.completeMultipartUpload]

/-- Nothing is in the way of the upload: no read raises or returns too much, the bytes
are not too many, and no call meets a fault. -/
structure GoesThrough (client : Client) (maxBytes : Nat) (source : ReadableStream) : Prop where
  fits : Fits uploadPartSize source.answers
  size : (sourceBytes source.answers).length ≤ maxBytes
  calls : ∀ call ∈ uploadCalls (sourceBytes source.answers).length, client call = .none

section Stream

variable {client : Client} {bucket key : String} {maxBytes : Nat} {store : ObjectStore}

theorem sending_start {uploadId : Nat} {after : ObjectStore}
    (asked : client.ask (.createMultipartUpload bucket key) store = (.ok uploadId, after)) :
    Sending after uploadId .start [] ∧ after.objects = store.objects := by
  have answered : client.ask (.createMultipartUpload bucket key) store = _ :=
    ask_ok (ask_faultless asked) rfl
  cases asked.symm.trans answered
  exact ⟨⟨Function.update_self _ _ _, rfl, rfl, rfl, rfl, rfl⟩, rfl⟩

theorem goesThrough_parts {source : ReadableStream} {first : Bytes} {rest : List ReadAnswer}
    (some : first ≠ []) (created : client .createMultipartUpload = .none)
    (takes : TakesPart source.answers [] rest first) :
    GoesThrough client maxBytes source ↔ PartsGoThrough client maxBytes .start first rest := by
  have bytes : first ++ sourceBytes rest = sourceBytes source.answers := takes.bytes
  have fits := takes.fits_first
  have positive : (sourceBytes source.answers).length ≠ 0 := by
    rw [← bytes, List.length_append]
    have := List.length_pos_iff.mpr some
    omega
  constructor
  · rintro ⟨fitting, size, calls⟩
    simp only [uploadCalls, positive, if_false] at calls
    refine ⟨fits.mp fitting, ?_, ?_,
      calls _ (List.mem_append_right _ (List.mem_singleton_self _))⟩
    · simpa [UploadProgress.start, bytes] using size
    · intro n less
      rw [bytes] at less
      refine calls _ ?_
      simp only [List.mem_append, List.mem_cons, List.mem_map, List.mem_range]
      exact Or.inl (Or.inr ⟨n, less, by simp [UploadProgress.start, Nat.add_comm]⟩)
  · rintro ⟨fitting, size, parts, complete⟩
    refine ⟨fits.mpr fitting, ?_, ?_⟩
    · simpa [UploadProgress.start, bytes] using size
    · rw [bytes] at parts
      intro call member
      simp only [uploadCalls, positive, if_false, List.mem_append, List.mem_cons, List.mem_map,
        List.mem_range, List.not_mem_nil, or_false] at member
      rcases member with (rfl | ⟨n, less, rfl⟩) | rfl
      · exact created
      · rw [Nat.add_comm]
        exact parts n less
      · exact complete

theorem putEmpty_uploaded (client : Client) (bucket key : String) (store : ObjectStore) :
    Uploaded (client .putObject = .none) (bucket, key) [] store
      (putEmpty client bucket key store) := by
  unfold putEmpty
  cases asked : client.ask (.putObject bucket key []) store with
  | mk result after =>
      cases result with
      | ok _ =>
          have faultless := ask_faultless asked
          have answered : client.ask (.putObject bucket key []) store = _ := ask_ok faultless rfl
          cases asked.symm.trans answered
          refine ⟨faultless, ?_, rfl⟩
          simp [Sha256.Hasher.hexdigest, Sha256.Hasher.new]
      | error e =>
          have refused : ¬ client .putObject = .none := by
            intro faultless
            have answered : client.ask (.putObject bucket key []) store = _ :=
              ask_ok faultless rfl
            cases asked.symm.trans answered
          cases e with
          | other => exact refused
          | botoCoreError | clientError => exact refused

theorem multipartUpload_uploaded {source : ReadableStream} {first : Bytes}
    {rest : List ReadAnswer} (some : first ≠ []) (takes : TakesPart source.answers [] rest first) :
    Uploaded (GoesThrough client maxBytes source) (bucket, key) (sourceBytes source.answers) store
      (multipartUpload client bucket key maxBytes first rest store) := by
  have bytes : first ++ sourceBytes rest = sourceBytes source.answers := takes.bytes
  unfold multipartUpload
  cases asked : client.ask (.createMultipartUpload bucket key) store with
  | mk result after =>
      cases result with
      | error e =>
          intro through
          have positive : (sourceBytes source.answers).length ≠ 0 := by
            rw [← bytes, List.length_append]
            have := List.length_pos_iff.mpr some
            omega
          have listed : S3Call.createMultipartUpload ∈
              uploadCalls (sourceBytes source.answers).length := by
            rw [uploadCalls, if_neg positive]
            exact List.mem_append_left _ List.mem_cons_self
          have created : client .createMultipartUpload = .none := through.calls _ listed
          have answered : client.ask (.createMultipartUpload bucket key) store = _ :=
            ask_ok created rfl
          cases asked.symm.trans answered
      | ok uploadId =>
          obtain ⟨sending, objects⟩ := sending_start asked
          have parts : Uploaded (PartsGoThrough client maxBytes .start first rest) (bucket, key)
              ([] ++ (first ++ sourceBytes rest)) after
              (uploadParts client bucket key uploadId maxBytes .start first rest after) :=
            uploadParts_uploaded sending (Nat.zero_le maxBytes) takes.nonempty takes.bound takes.last
          rw [List.nil_append, bytes] at parts
          have uploaded := parts.congr (goesThrough_parts some (ask_faultless asked) takes) objects
          dsimp only
          cases ends : uploadParts client bucket key uploadId maxBytes .start first rest after with
          | mk result last =>
              rw [ends] at uploaded
              cases result with
              | ok result => exact uploaded
              | error e => exact uploaded

theorem uploadStream_uploaded (client : Client) (bucket key : String) (source : ReadableStream)
    (maxBytes : Nat) (store : ObjectStore) :
    Uploaded (GoesThrough client maxBytes source) (bucket, key) (sourceBytes source.answers) store
      (uploadStream client bucket key source.answers maxBytes store) := by
  unfold uploadStream
  cases read : readPart source.answers [] with
  | error e =>
      intro through
      exact readPart_error_first source.nonempty read through.fits
  | ok answer =>
      obtain ⟨first, rest⟩ := answer
      have takes := readPart_ok source.nonempty (Nat.zero_le _) read
      dsimp only
      by_cases none : first = []
      · subst none
        have ended : rest = [] := takes.last uploadPartSize_pos
        subst ended
        have empty : sourceBytes source.answers = [] := takes.bytes.symm
        rw [if_pos rfl, empty]
        refine (putEmpty_uploaded client bucket key store).congr ?_ rfl
        constructor
        · intro through
          refine through.calls _ ?_
          rw [empty]
          exact List.mem_singleton_self _
        · intro faultless
          refine ⟨takes.fits_first.mpr trivial, ?_, ?_⟩
          · rw [empty]
            exact Nat.zero_le _
          · rw [empty]
            intro call member
            rw [List.mem_singleton.mp member]
            exact faultless
      · rw [if_neg none]
        exact multipartUpload_uploaded none takes

/-- An upload touches its own object alone. -/
theorem uploadStream_objects (client : Client) (bucket key : String) (answers : List ReadAnswer)
    (maxBytes : Nat) (store : ObjectStore) :
    ∀ object, object ≠ (bucket, key) →
      (uploadStream client bucket key answers maxBytes store).2.objects object =
        store.objects object := by
  intro object different
  have kept : ∀ (request : S3Request) (store : ObjectStore), request.object = (bucket, key) →
      (client.ask request store).2.objects object = store.objects object :=
    fun request store same => ask_objects client request store object (same ▸ different)
  unfold uploadStream
  cases readPart answers [] with
  | error e => rfl
  | ok answer =>
      obtain ⟨first, rest⟩ := answer
      dsimp only
      split
      · have put := kept (.putObject bucket key []) store rfl
        unfold putEmpty
        cases asked : client.ask (.putObject bucket key []) store with
        | mk result after =>
            rw [asked] at put
            cases result with
            | ok _ => exact put
            | error e => cases e <;> exact put
      · have created := kept (.createMultipartUpload bucket key) store rfl
        unfold multipartUpload
        cases asked : client.ask (.createMultipartUpload bucket key) store with
        | mk result after =>
            rw [asked] at created
            cases result with
            | error e => exact created
            | ok uploadId =>
                have parts : (uploadParts client bucket key uploadId maxBytes .start first rest
                    after).2.objects object = after.objects object :=
                  uploadParts_objects object different
                dsimp only
                cases ends : uploadParts client bucket key uploadId maxBytes .start first rest
                  after with
                | mk result last =>
                    rw [ends] at parts
                    cases result with
                    | ok result => exact parts.trans created
                    | error e => exact (kept _ last rfl).trans (parts.trans created)

end Stream

end StockImport.Storage
