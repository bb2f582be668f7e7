import Mathlib.Data.List.Nodup
import StockImport.Csv.ChunkIO

/-!
# The object store

The requests of the S3 client and what they do to the objects and the open multipart
uploads of a bucket.  A call may fail without an effect, or raise although the store
has carried it out.
-/

set_option autoImplicit false

namespace StockImport.Storage

open Csv

/-- What the client raises; `other` is neither a `BotoCoreError` nor a `ClientError`. -/
inductive ClientException where
  | botoCoreError
  | clientError
  | other
  deriving DecidableEq, Repr

inductive S3Request where
  | putObject (bucket key : String) (body : Bytes)
  | createMultipartUpload (bucket key : String)
  | uploadPart (bucket key : String) (uploadId partNumber : Nat) (body : Bytes)
  | completeMultipartUpload (bucket key : String) (uploadId : Nat) (parts : List (String × Nat))
  | abortMultipartUpload (bucket key : String) (uploadId : Nat)
  | deleteObject (bucket key : String)
  deriving DecidableEq, Repr

/-- The new upload, the `ETag` of a part. -/
abbrev S3Request.Reply : S3Request → Type
  | .createMultipartUpload _ _ => Nat
  | .uploadPart _ _ _ _ _ => String
  | _ => Unit

/-- The calls of one upload and its compensation; each is made at most once. -/
inductive S3Call where
  | putObject
  | createMultipartUpload
  | uploadPart (partNumber : Nat)
  | completeMultipartUpload
  | abortMultipartUpload
  | deleteObject
  deriving DecidableEq, Repr

def S3Request.call : S3Request → S3Call
  | .putObject _ _ _ => .putObject
  | .createMultipartUpload _ _ => .createMultipartUpload
  | .uploadPart _ _ _ partNumber _ => .uploadPart partNumber
  | .completeMultipartUpload _ _ _ _ => .completeMultipartUpload
  | .abortMultipartUpload _ _ _ => .abortMultipartUpload
  | .deleteObject _ _ => .deleteObject

/-- The object a request is about. -/
def S3Request.object : S3Request → String × String
  | .putObject bucket key _ => (bucket, key)
  | .createMultipartUpload bucket key => (bucket, key)
  | .uploadPart bucket key _ _ _ => (bucket, key)
  | .completeMultipartUpload bucket key _ _ => (bucket, key)
  | .abortMultipartUpload bucket key _ => (bucket, key)
  | .deleteObject bucket key => (bucket, key)

inductive CallFault where
  | none
  | fails (e : ClientException)
  | unanswered (e : ClientException)
  deriving DecidableEq, Repr

/-- Whether the store carries the request out. -/
def CallFault.takesEffect : CallFault → Bool
  | .none => true
  | .fails _ => false
  | .unanswered _ => true

/-- The faults of one upload and its compensation. -/
abbrev Client := S3Call → CallFault

structure UploadedPart where
  eTag : String
  partNumber : Nat
  body : Bytes
  deriving DecidableEq, Repr

def UploadedPart.entry (part : UploadedPart) : String × Nat := (part.eTag, part.partNumber)

structure ObjectStore where
  objects : String × String → Option Bytes
  uploads : Nat → Option (List UploadedPart)
  nextUploadId : Nat
  requests : List S3Request

/-- The listed parts in their order; nothing where one of them is not there. -/
def joinParts (stored : List UploadedPart) : List (String × Nat) → Option Bytes
  | [] => some []
  | listed :: rest =>
      match stored.find? fun part => part.entry = listed with
      | none => none
      | some part => (joinParts stored rest).map (part.body ++ ·)

def eTagOf (partNumber : Nat) : String := "etag-" ++ toString partNumber

/-- What the store does; nothing where it refuses the request. -/
def S3Request.exec : (request : S3Request) → ObjectStore → Option (request.Reply × ObjectStore)
  | .putObject bucket key body, store =>
      some ((), { store with objects := Function.update store.objects (bucket, key) (some body) })
  | .createMultipartUpload _ _, store =>
      some (store.nextUploadId,
        { store with
          uploads := Function.update store.uploads store.nextUploadId (some [])
          nextUploadId := store.nextUploadId + 1 })
  | .uploadPart _ _ uploadId partNumber body, store =>
      (store.uploads uploadId).map fun stored =>
        (eTagOf partNumber,
          { store with
            uploads := Function.update store.uploads uploadId
              (some ((stored.filter fun part => part.partNumber ≠ partNumber) ++
                [⟨eTagOf partNumber, partNumber, body⟩])) })
  | .completeMultipartUpload bucket key uploadId parts, store =>
      ((store.uploads uploadId).bind (joinParts · parts)).map fun body =>
        ((),
          { store with
            objects := Function.update store.objects (bucket, key) (some body)
            uploads := Function.update store.uploads uploadId none })
  | .abortMultipartUpload _ _ uploadId, store =>
      (store.uploads uploadId).map fun _ =>
        ((), { store with uploads := Function.update store.uploads uploadId none })
  | .deleteObject bucket key, store =>
      some ((), { store with objects := Function.update store.objects (bucket, key) none })

/-- A call of the client. -/
def Client.ask (client : Client) (request : S3Request) (store : ObjectStore) :
    Except ClientException request.Reply × ObjectStore :=
  let asked := { store with requests := store.requests ++ [request] }
  match client request.call, request.exec asked with
  | .none, some (reply, after) => (.ok reply, after)
  | .none, none => (.error .clientError, asked)
  | .fails e, _ => (.error e, asked)
  | .unanswered e, some (_, after) => (.error e, after)
  | .unanswered e, none => (.error e, asked)

/-! ## What a call changes -/

section Calls

variable {client : Client} {request : S3Request} {store : ObjectStore}

theorem exec_objects {reply : request.Reply} {after : ObjectStore}
    (executed : request.exec store = some (reply, after)) :
    ∀ object, object ≠ request.object → after.objects object = store.objects object := by
  intro object different
  cases request with
  | putObject bucket key body | deleteObject bucket key =>
      cases executed
      exact Function.update_of_ne different _ _
  | createMultipartUpload _ _ =>
      cases executed
      rfl
  | uploadPart _ _ uploadId partNumber body =>
      simp only [S3Request.exec, Option.map_eq_some_iff, Prod.mk.injEq] at executed
      obtain ⟨_, _, _, rfl⟩ := executed
      rfl
  | completeMultipartUpload bucket key uploadId parts =>
      simp only [S3Request.exec, Option.map_eq_some_iff, Prod.mk.injEq] at executed
      obtain ⟨_, _, _, rfl⟩ := executed
      exact Function.update_of_ne different _ _
  | abortMultipartUpload _ _ uploadId =>
      simp only [S3Request.exec, Option.map_eq_some_iff, Prod.mk.injEq] at executed
      obtain ⟨_, _, _, rfl⟩ := executed
      rfl

theorem exec_uploadPart {bucket key : String} {uploadId partNumber : Nat} {body : Bytes}
    {stored : List UploadedPart} (uploads : store.uploads uploadId = some stored)
    (fresh : ∀ part ∈ stored, part.partNumber ≠ partNumber) :
    (S3Request.uploadPart bucket key uploadId partNumber body).exec store =
      some (eTagOf partNumber,
        { store with
          uploads := Function.update store.uploads uploadId
            (some (stored ++ [⟨eTagOf partNumber, partNumber, body⟩])) }) := by
  have others : stored.filter (fun part => part.partNumber ≠ partNumber) = stored :=
    List.filter_eq_self.mpr fun part member => by simpa using fresh part member
  simp only [S3Request.exec, uploads, Option.map_some, others]

theorem exec_completeMultipartUpload {bucket key : String} {uploadId : Nat}
    {parts : List (String × Nat)} {stored : List UploadedPart} {body : Bytes}
    (uploads : store.uploads uploadId = some stored) (joined : joinParts stored parts = some body) :
    (S3Request.completeMultipartUpload bucket key uploadId parts).exec store =
      some ((),
        { store with
          objects := Function.update store.objects (bucket, key) (some body)
          uploads := Function.update store.uploads uploadId none }) := by
  simp only [S3Request.exec, uploads, Option.bind_some, joined, Option.map_some]

/-- A call changes no object but its own. -/
theorem ask_objects (client : Client) (request : S3Request) (store : ObjectStore) :
    ∀ object, object ≠ request.object →
      (client.ask request store).2.objects object = store.objects object := by
  intro object different
  unfold Client.ask
  dsimp only
  split
  · next executed => exact exec_objects executed object different
  · rfl
  · rfl
  · next executed => exact exec_objects executed object different
  · rfl

/-- A call without a fault does what the store does. -/
theorem ask_ok (faultless : client request.call = .none) {reply : request.Reply}
    {after : ObjectStore}
    (executed : request.exec { store with requests := store.requests ++ [request] } =
      some (reply, after)) :
    client.ask request store = (.ok reply, after) := by
  simp [Client.ask, faultless, executed]

/-- A call that returns has met no fault. -/
theorem ask_faultless {reply : request.Reply} {after : ObjectStore}
    (answered : client.ask request store = (.ok reply, after)) :
    client request.call = .none := by
  unfold Client.ask at answered
  dsimp only at answered
  split at answered
  · next faultless _ => exact faultless
  · cases answered
  · cases answered
  · cases answered
  · cases answered

theorem ask_deleteObject (client : Client) (bucket key : String) (store : ObjectStore) :
    (client.ask (.deleteObject bucket key) store).2.objects =
      if (client .deleteObject).takesEffect then Function.update store.objects (bucket, key) none
      else store.objects := by
  cases fault : client .deleteObject with
  | none | fails e | unanswered e =>
      simp [Client.ask, S3Request.call, S3Request.exec, fault, CallFault.takesEffect]

end Calls

/-! ## The parts of an upload -/

theorem joinParts_sublist {stored : List UploadedPart}
    (distinct : (stored.map UploadedPart.partNumber).Nodup) :
    ∀ listed : List UploadedPart, (∀ part ∈ listed, part ∈ stored) →
      joinParts stored (listed.map UploadedPart.entry) =
        some (listed.flatMap UploadedPart.body) := by
  intro listed
  induction listed with
  | nil => exact fun _ => rfl
  | cons part rest ih =>
      intro inStored
      have found : stored.find? (fun other => other.entry = part.entry) = some part := by
        have known := inStored part List.mem_cons_self
        cases search : stored.find? (fun other => other.entry = part.entry) with
        | none =>
            have differs := List.find?_eq_none.mp search part known
            simp at differs
        | some other =>
            have same : other.entry = part.entry := by simpa using List.find?_some search
            exact congrArg some (List.inj_on_of_nodup_map distinct
              (List.mem_of_find?_eq_some search) known (congrArg Prod.snd same))
      simp only [List.map_cons, joinParts, found, ih fun other member =>
        inStored other (List.mem_cons_of_mem _ member), Option.map_some, List.flatMap_cons]

/-- All parts of an upload in the order of their numbers. -/
theorem joinParts_all {stored : List UploadedPart}
    (distinct : (stored.map UploadedPart.partNumber).Nodup) :
    joinParts stored (stored.map UploadedPart.entry) = some (stored.flatMap UploadedPart.body) :=
  joinParts_sublist distinct stored fun _ member => member

end StockImport.Storage
