import StockImport.Storage.Upload

/-!
# Multipart uploads

What an upload asks of the store, where every failing call is without an effect: parts
in turn, all but the last of them full; the completion where nothing failed; an abort
where something did.
-/

set_option autoImplicit false

namespace StockImport.Storage

open Csv

/-- A part as it is sent: its number and its body. -/
abbrev SentPart := Nat × Bytes

/-- The parts among the requests, in their order. -/
def sentParts (requests : List S3Request) : List SentPart :=
  requests.filterMap fun
    | .uploadPart _ _ _ partNumber body => some (partNumber, body)
    | _ => none

/-- Parts numbered in turn from `first`, of which the last alone may be short. -/
structure PartsInTurn (first : Nat) (parts : List SentPart) : Prop where
  numbers : parts.map Prod.fst = List.range' first parts.length
  full : ∀ part ∈ parts.dropLast, part.2.length = uploadPartSize
  nonempty : ∀ part ∈ parts, part.2 ≠ []

theorem PartsInTurn.nil (first : Nat) : PartsInTurn first [] :=
  ⟨rfl, by simp, by simp⟩

theorem PartsInTurn.cons {first : Nat} {body : Bytes} {rest : List SentPart}
    (some : body ≠ []) (full : rest ≠ [] → body.length = uploadPartSize)
    (inTurn : PartsInTurn (first + 1) rest) : PartsInTurn first ((first, body) :: rest) := by
  obtain ⟨numbers, allFull, nonempty⟩ := inTurn
  refine ⟨?_, ?_, ?_⟩
  · rw [List.map_cons, numbers, List.length_cons, List.range'_succ]
  · intro part member
    cases rest with
    | nil => cases member
    | cons next others =>
        rw [List.dropLast_cons_cons, List.mem_cons] at member
        rcases member with rfl | later
        · exact full (List.cons_ne_nil _ _)
        · exact allFull part later
  · intro part member
    rw [List.mem_cons] at member
    rcases member with rfl | later
    · exact some
    · exact nonempty part later

@[simp] theorem sentParts_append (made later : List S3Request) :
    sentParts (made ++ later) = sentParts made ++ sentParts later :=
  List.filterMap_append

@[simp] theorem sentParts_uploads (bucket key : String) (uploadId : Nat) (sent : List SentPart) :
    sentParts (sent.map fun part => .uploadPart bucket key uploadId part.1 part.2) = sent := by
  induction sent with
  | nil => rfl
  | cons part sent ih =>
      rw [List.map_cons]
      exact congrArg (part :: ·) ih

@[simp] theorem sentParts_create (bucket key : String) (later : List S3Request) :
    sentParts (.createMultipartUpload bucket key :: later) = sentParts later := rfl

@[simp] theorem sentParts_abort (bucket key : String) (uploadId : Nat) :
    sentParts [.abortMultipartUpload bucket key uploadId] = [] := rfl

/-! ## The requests -/

section Requests

variable {client : Client} {request : S3Request} {store : ObjectStore}

theorem exec_requests {reply : request.Reply} {after : ObjectStore}
    (executed : request.exec store = some (reply, after)) : after.requests = store.requests := by
  cases request with
  | putObject _ _ _ | createMultipartUpload _ _ | deleteObject _ _ =>
      cases executed
      rfl
  | uploadPart _ _ _ _ _ | completeMultipartUpload _ _ _ _ | abortMultipartUpload _ _ _ =>
      simp only [S3Request.exec, Option.map_eq_some_iff, Prod.mk.injEq] at executed
      obtain ⟨_, _, _, rfl⟩ := executed
      rfl

/-- Every call is a request, whatever comes of it. -/
theorem ask_requests (client : Client) (request : S3Request) (store : ObjectStore) :
    (client.ask request store).2.requests = store.requests ++ [request] := by
  unfold Client.ask
  dsimp only
  split
  · next executed => exact exec_requests executed
  · rfl
  · rfl
  · next executed => exact exec_requests executed
  · rfl

theorem asked_requests {client : Client} {request : S3Request} {store after : ObjectStore}
    {result : Except ClientException request.Reply}
    (asked : client.ask request store = (result, after)) :
    after.requests = store.requests ++ [request] := by
  have logged := ask_requests client request store
  rw [asked] at logged
  exact logged

/-- Requests that write no object. -/
def S3Request.writesNone : S3Request → Bool
  | .createMultipartUpload _ _ => true
  | .uploadPart _ _ _ _ _ => true
  | .abortMultipartUpload _ _ _ => true
  | _ => false

theorem ask_writesNone (writes : request.writesNone = true) :
    (client.ask request store).2.objects = store.objects := by
  have kept : ∀ (before after : ObjectStore) (reply : request.Reply),
      request.exec before = some (reply, after) → after.objects = before.objects := by
    intro before after reply executed
    cases request with
    | putObject _ _ _ | completeMultipartUpload _ _ _ _ | deleteObject _ _ => cases writes
    | createMultipartUpload _ _ =>
        cases executed
        rfl
    | uploadPart _ _ _ _ _ | abortMultipartUpload _ _ _ =>
        simp only [S3Request.exec, Option.map_eq_some_iff, Prod.mk.injEq] at executed
        obtain ⟨_, _, _, rfl⟩ := executed
        rfl
  unfold Client.ask
  dsimp only
  split
  · next executed =>
      have same := kept _ _ _ executed
      exact same
  · rfl
  · rfl
  · next executed =>
      have same := kept _ _ _ executed
      exact same
  · rfl

/-- No call has an effect and raises. -/
def Client.FailsWithoutEffect (client : Client) : Prop :=
  ∀ call e, client call ≠ .unanswered e

theorem ask_fails (withoutEffect : client.FailsWithoutEffect) {e : ClientException}
    {after : ObjectStore} (asked : client.ask request store = (.error e, after)) :
    after.objects = store.objects := by
  unfold Client.ask at asked
  dsimp only at asked
  split at asked
  · cases asked
  · cases asked
    rfl
  · cases asked
    rfl
  · next unanswered _ => exact absurd unanswered (withoutEffect _ _)
  · next unanswered _ => exact absurd unanswered (withoutEffect _ _)

end Requests

/-! ## The loop over the parts -/

section Loop

variable {client : Client} {bucket key : String} {uploadId maxBytes : Nat}
  {progress : UploadProgress} {store : ObjectStore} {stored : List UploadedPart}
  {part : Bytes} {source : List ReadAnswer}

/-- What the loop asks of the store from `part` on. -/
structure AsksInTurn (client : Client) (bucket key : String) (uploadId first : Nat) (part : Bytes)
    (source : List ReadAnswer) (store : ObjectStore)
    (ends : Except ServiceException UploadResult × ObjectStore) (sent : List SentPart)
    (last : List S3Request) : Prop where
  requests : ends.2.requests = store.requests ++
    (sent.map fun sentPart => .uploadPart bucket key uploadId sentPart.1 sentPart.2) ++ last
  inTurn : PartsInTurn first sent
  none : part = [] → sent = []
  completes : last = [] ∨ ∃ parts, last = [.completeMultipartUpload bucket key uploadId parts]
  refused : ∀ e, ends.1 = .error e → last ≠ [] → client .completeMultipartUpload ≠ .none
  whole : ∀ result, ends.1 = .ok result → sent.flatMap Prod.snd = part ++ sourceBytes source

/-- The part is sent, and no request follows. -/
theorem AsksInTurn.single {uploadId first : Nat}
    {ends : Except ServiceException UploadResult × ObjectStore} {e : ServiceException}
    (some : part ≠ [])
    (logged : ends.2.requests = store.requests ++ [.uploadPart bucket key uploadId first part])
    (raised : ends.1 = .error e) :
    AsksInTurn client bucket key uploadId first part source store ends [(first, part)] [] where
  requests := by simpa using logged
  inTurn := .cons some (fun others => absurd rfl others) (.nil _)
  none nothing := absurd nothing some
  completes := Or.inl rfl
  refused _ _ asks := absurd rfl asks
  whole result returns := by cases raised.symm.trans returns

/-- The part is sent before those of the turns that follow. -/
theorem AsksInTurn.next {uploadId first : Nat} {next : Bytes} {rest : List ReadAnswer}
    {after : ObjectStore} {ends : Except ServiceException UploadResult × ObjectStore}
    {sent : List SentPart} {last : List S3Request}
    (later : AsksInTurn client bucket key uploadId (first + 1) next rest after ends sent last)
    (some : part ≠ [])
    (logged : after.requests = store.requests ++ [.uploadPart bucket key uploadId first part])
    (full : next ≠ [] → part.length = uploadPartSize)
    (bytes : next ++ sourceBytes rest = sourceBytes source) :
    AsksInTurn client bucket key uploadId first part source store ends ((first, part) :: sent)
      last where
  requests := by
    simp only [later.requests, logged, List.map_cons, List.append_assoc, List.cons_append,
      List.nil_append]
  inTurn := .cons some (fun others => full fun nothing => others (later.none nothing)) later.inTurn
  none nothing := absurd nothing some
  completes := later.completes
  refused := later.refused
  whole result returns := by rw [List.flatMap_cons, later.whole result returns, bytes]

theorem uploadParts_asks (sending : Sending store uploadId progress stored)
    (nonempty : ReadAnswer.returns [] ∉ source) (bound : part.length ≤ uploadPartSize)
    (last : part.length < uploadPartSize → source = []) :
    ∃ sent final, AsksInTurn client bucket key uploadId progress.partNumber part source store
      (uploadParts client bucket key uploadId maxBytes progress part source store) sent final := by
  induction progress, part, source, store using
    uploadParts.induct client bucket key uploadId maxBytes generalizing stored with
  | case1 progress source store e after asked =>
      rw [uploadParts, if_pos rfl, asked]
      have logged := asked_requests asked
      refine ⟨[], _, by simpa using logged, .nil _, fun _ => rfl, Or.inr ⟨_, rfl⟩, ?_,
        fun result returns => by cases returns⟩
      intro _ _ _ faultless
      obtain ⟨_, completed, _⟩ := sending.complete bucket key faultless
      cases asked.symm.trans completed
  | case2 progress source store after asked =>
      have ended : source = [] := last uploadPartSize_pos
      subst ended
      rw [uploadParts, if_pos rfl, asked]
      have logged := asked_requests asked
      exact ⟨[], _, by simpa using logged, .nil _, fun _ => rfl, Or.inr ⟨_, rfl⟩,
        (fun e raises => by cases raises), fun _ _ => rfl⟩
  | case3 progress part source store some tooLarge =>
      rw [uploadParts, if_neg some, if_pos tooLarge]
      exact ⟨[], [], by simp, .nil _, fun _ => rfl, Or.inl rfl, fun _ _ asks => absurd rfl asks,
        fun result returns => by cases returns⟩
  | case4 progress part source store some fits e after asked =>
      rw [uploadParts, if_neg some, if_neg fits, asked]
      exact ⟨_, _, .single some (asked_requests asked) rfl⟩
  | case5 progress part source store some fits eTag after asked e read =>
      rw [uploadParts_next some fits asked, read]
      exact ⟨_, _, .single some (asked_requests asked) rfl⟩
  | case6 progress part source store some fits eTag after asked next rest read ih =>
      have takes := readPart_ok nonempty (Nat.zero_le _) read
      have bytes : next ++ sourceBytes rest = sourceBytes source := takes.bytes
      obtain ⟨_, answered, _, sent⟩ := sending.uploadPart bucket key part (ask_faultless asked)
      cases asked.symm.trans answered
      obtain ⟨sent, final, later⟩ := ih sent takes.nonempty takes.bound takes.last
      rw [uploadParts_next some fits asked, read]
      refine ⟨_, _, later.next some (asked_requests asked) (fun others => ?_) bytes⟩
      by_contra short
      have ended : source = [] := last (by omega)
      subst ended
      cases read
      exact others rfl

/-- A part that fits, where the rest does not, is full. -/
theorem full_of_fits {totalSize : Nat} (bound : part.length ≤ uploadPartSize)
    (last : part.length < uploadPartSize → source = [])
    (fits : ¬ maxBytes < totalSize + part.length)
    (tooLarge : maxBytes < totalSize + (part ++ sourceBytes source).length) :
    part.length = uploadPartSize := by
  by_contra short
  have ended : source = [] := last (by omega)
  subst ended
  simp [sourceBytes] at tooLarge
  omega

/-- Where the bytes are too many: the loop raises at the part that takes them past the
limit, if it gets there. -/
theorem uploadParts_tooLarge (sending : Sending store uploadId progress stored)
    (within : progress.totalSize ≤ maxBytes) (nonempty : ReadAnswer.returns [] ∉ source)
    (bound : part.length ≤ uploadPartSize) (last : part.length < uploadPartSize → source = [])
    (fitting : Fits uploadPartSize source) :
    (uploadParts client bucket key uploadId maxBytes progress part source store).1 =
        .error .fileTooLarge ↔
      maxBytes < progress.totalSize + (part ++ sourceBytes source).length ∧
        ∀ n < (maxBytes - progress.totalSize) / uploadPartSize,
          client (.uploadPart (progress.partNumber + n)) = .none := by
  have positive := uploadPartSize_pos
  induction progress, part, source, store using
    uploadParts.induct client bucket key uploadId maxBytes generalizing stored with
  | case1 progress source store e after asked =>
      have ended : source = [] := last positive
      subst ended
      rw [uploadParts, if_pos rfl, asked]
      simp [sourceBytes, within]
  | case2 progress source store after asked =>
      have ended : source = [] := last positive
      subst ended
      rw [uploadParts, if_pos rfl, asked]
      simp [sourceBytes, within]
  | case3 progress part source store some tooLarge =>
      rw [uploadParts, if_neg some, if_pos tooLarge]
      have here : (maxBytes - progress.totalSize) / uploadPartSize = 0 :=
        Nat.div_eq_of_lt (by omega)
      rw [here, List.length_append]
      exact iff_of_true rfl ⟨by omega, fun n less => absurd less (Nat.not_lt_zero n)⟩
  | case4 progress part source store some fits e after asked =>
      rw [uploadParts, if_neg some, if_neg fits, asked]
      refine iff_of_false (fun raised => by cases raised) ?_
      rintro ⟨tooLarge, answered⟩
      -- a part that is full is among the calls
      have full := full_of_fits bound last fits tooLarge
      have counted : 0 < (maxBytes - progress.totalSize) / uploadPartSize :=
        Nat.div_pos (by omega) positive
      obtain ⟨_, sent, _⟩ := sending.uploadPart bucket key part (answered 0 counted)
      cases asked.symm.trans sent
  | case5 progress part source store some fits eTag after asked e read =>
      exact absurd fitting (readPart_error_first nonempty read)
  | case6 progress part source store some fits eTag after asked next rest read ih =>
      have faultless := ask_faultless asked
      obtain ⟨_, answered, _, sent⟩ := sending.uploadPart bucket key part faultless
      cases asked.symm.trans answered
      have takes := readPart_ok nonempty (Nat.zero_le _) read
      have bytes : next ++ sourceBytes rest = sourceBytes source := takes.bytes
      rw [uploadParts_next some fits asked, read]
      refine (ih sent (Nat.le_of_not_lt fits) takes.nonempty takes.bound takes.last
        (takes.fits_first.mp fitting)).trans ?_
      dsimp only
      rw [bytes, List.length_append, Nat.add_assoc]
      refine and_congr_right fun tooLarge => ?_
      have full := full_of_fits bound last fits
        (by rw [List.length_append]; exact tooLarge)
      have counted : (maxBytes - progress.totalSize) / uploadPartSize =
          (maxBytes - (progress.totalSize + part.length)) / uploadPartSize + 1 := by
        rw [full, ← Nat.add_div_right _ positive]
        congr 1
        omega
      rw [counted]
      constructor
      · intro later n less
        cases n with
        | zero => exact faultless
        | succ n =>
            rw [Nat.add_comm n 1, ← Nat.add_assoc]
            exact later n (by omega)
      · intro all n less
        rw [Nat.add_assoc, Nat.add_comm 1 n]
        exact all (n + 1) (by omega)

theorem uploadParts_fails (withoutEffect : client.FailsWithoutEffect) {e : ServiceException}
    (raises : (uploadParts client bucket key uploadId maxBytes progress part source store).1 =
      .error e) :
    (uploadParts client bucket key uploadId maxBytes progress part source store).2.objects =
      store.objects := by
  have quiet : ∀ (partNumber : Nat) (part : Bytes) (store after : ObjectStore) (result : _),
      client.ask (.uploadPart bucket key uploadId partNumber part) store = (result, after) →
        after.objects = store.objects := by
    intro partNumber part store after result asked
    have kept : (client.ask (.uploadPart bucket key uploadId partNumber part) store).2.objects =
        store.objects := ask_writesNone rfl
    rw [asked] at kept
    exact kept
  induction progress, part, source, store using
    uploadParts.induct client bucket key uploadId maxBytes with
  | case1 progress source store e after asked =>
      rw [uploadParts, if_pos rfl, asked]
      exact ask_fails withoutEffect asked
  | case2 progress source store after asked =>
      rw [uploadParts, if_pos rfl, asked] at raises
      cases raises
  | case3 progress part source store some tooLarge =>
      rw [uploadParts, if_neg some, if_pos tooLarge]
  | case4 progress part source store some fits e after asked =>
      rw [uploadParts, if_neg some, if_neg fits, asked]
      exact quiet _ _ _ _ _ asked
  | case5 progress part source store some fits eTag after asked e read =>
      rw [uploadParts_next some fits asked, read]
      exact quiet _ _ _ _ _ asked
  | case6 progress part source store some fits eTag after asked next rest read ih =>
      rw [uploadParts_next some fits asked, read] at raises ⊢
      exact (ih raises).trans (quiet _ _ _ _ _ asked)

end Loop

/-! ## The whole upload -/

/-- The calls before the part that takes an upload past the limit. -/
def callsBefore (maxBytes : Nat) : List S3Call :=
  .createMultipartUpload ::
    (List.range (maxBytes / uploadPartSize)).map fun n => .uploadPart (n + 1)

/-- What an upload asks of the store from its beginning. -/
structure UploadAsks (client : Client) (bucket key : String) (uploadId : Nat) (bytes : Bytes)
    (result : Except ServiceException UploadResult) (made : List S3Request) : Prop where
  inTurn : PartsInTurn 1 (sentParts made)
  whole : ∀ stored, result = .ok stored → (sentParts made).flatMap Prod.snd = bytes
  aborts : ∀ e, result = .error e → .createMultipartUpload bucket key ∈ made →
    client .createMultipartUpload = .none → .abortMultipartUpload bucket key uploadId ∈ made
  incomplete : ∀ e, result = .error e → ∀ parts,
    .completeMultipartUpload bucket key uploadId parts ∈ made →
      client .completeMultipartUpload ≠ .none

/-- An upload of `bytes`: the object where nothing fails, the limit, and what an
exception leaves. -/
structure StoresWhatWasRead (client : Client) (bucket key : String) (bytes : Bytes)
    (maxBytes : Nat) (store : ObjectStore)
    (ends : Except ServiceException UploadResult × ObjectStore) : Prop where
  stores : bytes.length ≤ maxBytes → (∀ call ∈ uploadCalls bytes.length, client call = .none) →
    ends.1 = .ok ⟨bytes.length, Sha256.hexdigest bytes⟩ ∧
      ends.2.objects = Function.update store.objects (bucket, key) (some bytes)
  asks : ∃ made, ends.2.requests = store.requests ++ made ∧
    UploadAsks client bucket key store.nextUploadId bytes ends.1 made
  tooLarge : ends.1 = .error .fileTooLarge ↔
    maxBytes < bytes.length ∧ ∀ call ∈ callsBefore maxBytes, client call = .none
  keeps : ∀ e, ends.1 = .error e → ends.2.objects = store.objects

section Stream

variable {client : Client} {bucket key : String} {maxBytes : Nat} {store : ObjectStore}
  {first : Bytes} {answers rest : List ReadAnswer}

theorem putEmpty_stores (client : Client) (withoutEffect : client.FailsWithoutEffect)
    (bucket key : String) (maxBytes : Nat) (store : ObjectStore) :
    StoresWhatWasRead client bucket key [] maxBytes store (putEmpty client bucket key store) := by
  have uploaded := putEmpty_uploaded client bucket key store
  have logged := ask_requests client (.putObject bucket key []) store
  have asks : ∀ result : Except ServiceException UploadResult,
      UploadAsks client bucket key store.nextUploadId [] result [.putObject bucket key []] :=
    fun result => ⟨.nil 1, fun _ _ => rfl, by simp, by simp⟩
  have small : ∀ calls : Prop, ¬ (maxBytes < ([] : Bytes).length ∧ calls) :=
    fun _ large => Nat.not_lt_zero _ large.1
  unfold putEmpty at uploaded ⊢
  cases asked : client.ask (.putObject bucket key []) store with
  | mk result after =>
      rw [asked] at uploaded logged
      cases result with
      | ok _ =>
          obtain ⟨_, result, objects⟩ := uploaded
          exact ⟨fun _ _ => ⟨congrArg _ result, objects⟩, ⟨_, logged, asks _⟩,
            iff_of_false (fun raises => by cases raises) (small _), fun e raises => by cases raises⟩
      | error e =>
          have kept := ask_fails withoutEffect asked
          cases e with
          | other | botoCoreError | clientError =>
              have faulty : ¬ ∀ call ∈ uploadCalls 0, client call = .none :=
                fun calls => uploaded (calls _ (List.mem_singleton_self _))
              exact ⟨fun _ calls => absurd calls faulty, ⟨_, logged, asks _⟩,
                iff_of_false (fun raises => by cases raises) (small _), fun _ _ => kept⟩

/-- What comes of the request for a new upload. -/
theorem create_requests {result : Except ClientException Nat} {after : ObjectStore}
    (asked : client.ask (.createMultipartUpload bucket key) store = (result, after)) :
    after.requests = store.requests ++ [.createMultipartUpload bucket key] ∧
      after.objects = store.objects ∧
      (client .createMultipartUpload = .none → result = .ok store.nextUploadId) := by
  have logged := ask_requests client (.createMultipartUpload bucket key) store
  have kept : (client.ask (.createMultipartUpload bucket key) store).2.objects = store.objects :=
    ask_writesNone rfl
  rw [asked] at logged kept
  refine ⟨logged, kept, fun faultless => ?_⟩
  have answered : client.ask (.createMultipartUpload bucket key) store = _ := ask_ok faultless rfl
  cases asked.symm.trans answered
  rfl

theorem abort_requests (client : Client) (bucket key : String) (uploadId : Nat)
    (store : ObjectStore) :
    (abortMultipartUpload client bucket key uploadId store).requests =
        store.requests ++ [.abortMultipartUpload bucket key uploadId] ∧
      (abortMultipartUpload client bucket key uploadId store).objects = store.objects :=
  ⟨ask_requests client _ store, ask_writesNone rfl⟩

theorem multipartUpload_asks (takes : TakesPart answers [] rest first) :
    ∃ made, (multipartUpload client bucket key maxBytes first rest store).2.requests =
        store.requests ++ made ∧
      UploadAsks client bucket key store.nextUploadId (sourceBytes answers)
        (multipartUpload client bucket key maxBytes first rest store).1 made := by
  have bytes : first ++ sourceBytes rest = sourceBytes answers := takes.bytes
  unfold multipartUpload
  cases asked : client.ask (.createMultipartUpload bucket key) store with
  | mk result after =>
      obtain ⟨logged, _, answered⟩ := create_requests asked
      cases result with
      | error e =>
          have refused : client .createMultipartUpload ≠ .none := by
            intro faultless
            cases answered faultless
          exact ⟨_, logged, .nil 1, fun _ returns => (by cases returns),
            fun _ _ _ faultless => absurd faultless refused, by simp⟩
      | ok uploadId =>
          cases answered (ask_faultless asked)
          have asks : ∃ sent last, AsksInTurn client bucket key store.nextUploadId 1 first rest after
              (uploadParts client bucket key store.nextUploadId maxBytes .start first rest after)
              sent last :=
            uploadParts_asks (sending_start asked).1 takes.nonempty takes.bound takes.last
          obtain ⟨sent, last, requests, inTurn, _, completes, refused, whole⟩ := asks
          rw [logged, List.append_assoc, List.append_assoc] at requests
          rw [bytes] at whole
          have parts_last : sentParts last = [] := by
            rcases completes with rfl | ⟨parts, rfl⟩ <;> rfl
          have complete_last : ∀ parts, .completeMultipartUpload bucket key store.nextUploadId parts ∈
              last → last ≠ [] := fun _ member => List.ne_nil_of_mem member
          dsimp only
          cases ends : uploadParts client bucket key store.nextUploadId maxBytes .start first rest
            after with
          | mk result final =>
              rw [ends] at requests whole refused
              cases result with
              | ok stored =>
                  refine ⟨_, requests, ?_, ?_, fun _ raises => (by cases raises),
                    fun _ raises => by cases raises⟩
                  · simpa [parts_last] using inTurn
                  · intro stored returns
                    simpa [parts_last] using whole stored returns
              | error e =>
                  obtain ⟨aborted, _⟩ := abort_requests client bucket key store.nextUploadId final
                  rw [requests, List.append_assoc] at aborted
                  refine ⟨_, aborted, ?_, fun _ returns => (by cases returns), ?_, ?_⟩
                  · simpa [parts_last] using inTurn
                  · intro _ _ _ _
                    simp
                  · intro _ _ parts asks
                    refine refused e rfl (complete_last parts ?_)
                    simpa using asks

theorem multipartUpload_keeps (withoutEffect : client.FailsWithoutEffect) {e : ServiceException}
    (raises : (multipartUpload client bucket key maxBytes first rest store).1 = .error e) :
    (multipartUpload client bucket key maxBytes first rest store).2.objects = store.objects := by
  unfold multipartUpload at raises ⊢
  cases asked : client.ask (.createMultipartUpload bucket key) store with
  | mk result after =>
      rw [asked] at raises
      obtain ⟨_, kept, _⟩ := create_requests asked
      cases result with
      | error e => exact kept
      | ok uploadId =>
          dsimp only at raises ⊢
          cases ends : uploadParts client bucket key uploadId maxBytes .start first rest after with
          | mk result final =>
              rw [ends] at raises
              cases result with
              | ok stored => cases raises
              | error e =>
                  have failed : (uploadParts client bucket key uploadId maxBytes .start first rest
                      after).1 = .error e := by rw [ends]
                  have objects := uploadParts_fails withoutEffect failed
                  rw [ends] at objects
                  exact (abort_requests client bucket key uploadId final).2.trans
                    (objects.trans kept)

theorem ofUpload_fileTooLarge {e : ServiceException} :
    e.ofUpload = .fileTooLarge ↔ e = .fileTooLarge := by
  cases e <;> simp [ServiceException.ofUpload, ServiceException.isStorageUnavailable]

theorem multipartUpload_tooLarge (takes : TakesPart answers [] rest first)
    (fitting : Fits uploadPartSize answers) :
    (multipartUpload client bucket key maxBytes first rest store).1 = .error .fileTooLarge ↔
      maxBytes < (sourceBytes answers).length ∧
        ∀ call ∈ callsBefore maxBytes, client call = .none := by
  have bytes : first ++ sourceBytes rest = sourceBytes answers := takes.bytes
  have calls : (∀ call ∈ callsBefore maxBytes, client call = .none) ↔
      client .createMultipartUpload = .none ∧
        ∀ n < maxBytes / uploadPartSize, client (.uploadPart (1 + n)) = .none := by
    simp only [callsBefore, List.forall_mem_cons, List.forall_mem_map, List.mem_range,
      Nat.add_comm]
  rw [calls]
  unfold multipartUpload
  cases asked : client.ask (.createMultipartUpload bucket key) store with
  | mk result after =>
      obtain ⟨_, _, answered⟩ := create_requests asked
      cases result with
      | error e =>
          refine iff_of_false ?_ fun large => by cases answered large.2.1
          intro raises
          cases ofUpload_fileTooLarge.mp (Except.error.inj raises)
      | ok uploadId =>
          have faultless : client .createMultipartUpload = .none := ask_faultless asked
          have limit : (uploadParts client bucket key uploadId maxBytes .start first rest after).1 =
                .error .fileTooLarge ↔
              maxBytes < 0 + (first ++ sourceBytes rest).length ∧
                ∀ n < (maxBytes - 0) / uploadPartSize, client (.uploadPart (1 + n)) = .none :=
            uploadParts_tooLarge (sending_start asked).1 (Nat.zero_le _) takes.nonempty takes.bound
              takes.last (takes.fits_first.mp fitting)
          rw [bytes, Nat.zero_add, Nat.sub_zero] at limit
          dsimp only
          cases ends : uploadParts client bucket key uploadId maxBytes .start first rest after with
          | mk result final =>
              rw [ends] at limit
              rw [← and_congr_right fun _ => and_iff_right faultless] at limit
              cases result with
              | ok stored => exact limit
              | error e =>
                  rw [← limit]
                  constructor
                  · intro raises
                    rw [ofUpload_fileTooLarge.mp (Except.error.inj raises)]
                  · intro raises
                    rw [Except.error.inj raises]
                    rfl

/-- Every upload stores what was read. -/
theorem upload_stores_what_was_read (client : Client) (withoutEffect : client.FailsWithoutEffect)
    (bucket key : String) (source : ReadableStream) (fitting : Fits uploadPartSize source.answers)
    (maxBytes : Nat) (store : ObjectStore) :
    StoresWhatWasRead client bucket key (sourceBytes source.answers) maxBytes store
      (uploadStream client bucket key source.answers maxBytes store) := by
  have uploaded := uploadStream_uploaded client bucket key source maxBytes store
  have stores : (sourceBytes source.answers).length ≤ maxBytes →
      (∀ call ∈ uploadCalls (sourceBytes source.answers).length, client call = .none) →
      (uploadStream client bucket key source.answers maxBytes store).1 =
          .ok ⟨(sourceBytes source.answers).length, Sha256.hexdigest (sourceBytes source.answers)⟩ ∧
        (uploadStream client bucket key source.answers maxBytes store).2.objects =
          Function.update store.objects (bucket, key) (some (sourceBytes source.answers)) := by
    intro size calls
    cases ends : uploadStream client bucket key source.answers maxBytes store with
    | mk result after =>
        rw [ends] at uploaded
        cases result with
        | ok result => exact ⟨congrArg _ uploaded.2.1, uploaded.2.2⟩
        | error e => exact absurd ⟨fitting, size, calls⟩ uploaded
  unfold uploadStream at stores ⊢
  cases read : readPart source.answers [] with
  | error e => exact absurd fitting (readPart_error_first source.nonempty read)
  | ok answer =>
      obtain ⟨first, rest⟩ := answer
      have takes := readPart_ok source.nonempty (Nat.zero_le _) read
      rw [read] at stores
      dsimp only at stores ⊢
      by_cases none : first = []
      · subst none
        have ended : rest = [] := takes.last uploadPartSize_pos
        subst ended
        have empty : sourceBytes source.answers = [] := takes.bytes.symm
        rw [if_pos rfl, empty]
        exact putEmpty_stores client withoutEffect bucket key maxBytes store
      · rw [if_neg none] at stores ⊢
        exact ⟨stores, multipartUpload_asks takes, multipartUpload_tooLarge takes fitting,
          fun _ raises => multipartUpload_keeps withoutEffect raises⟩

end Stream

/-- Five bytes in two reads. -/
def twoReads : ReadableStream := ⟨[.returns [105, 100, 10], .returns [49, 10]], by decide⟩

def emptyStore : ObjectStore := ⟨fun _ => none, fun _ => none, 7, []⟩

theorem upload_stores_what_was_read_twoReads :
    StoresWhatWasRead (fun _ => .none) "reports" "key" (sourceBytes twoReads.answers) 5 emptyStore
      (uploadStream (fun _ => .none) "reports" "key" twoReads.answers 5 emptyStore) :=
  upload_stores_what_was_read (fun _ => .none) (fun _ _ => CallFault.noConfusion) "reports" "key"
    twoReads ⟨by decide, by decide, trivial⟩ 5 emptyStore

end StockImport.Storage
