import Pixaeron.Conversion.Admission

/-! # Upload completion

Uploads are verified against the object store, then whatever is ready is admitted.
-/

namespace Pixaeron.Conversion

open Transactions Transactions.Script

structure UploadCompletion extends AdmissionResult where
  verifiedFiles : Nat
  missingFiles : Nat

def answersHead (pending : List ConversionFile) (reply : Reply)
    (outside : Outside) : Option Outside :=
  match reply with
  | .headOf fileId _ => if fileId ∈ pending.map ConversionFile.id then some outside else none
  | _ => none

/-- `Promise.all` over the pending files: their HEAD requests are answered in any order, and an
answered file becomes READY at once. A failed request fails the whole, but the others go on. -/
def verifyUploads : Nat → List ConversionFile → Nat → Option Failure → Script conversion Nat
  | 0, _, verified, none => .done verified
  | 0, _, _, some failure => .fail failure
  | unanswered + 1, pending, verified, failure => do
    let reply ← callOut (answersHead pending)
    match reply with
    | .headOf fileId (some (some stored)) =>
      let count ← updateFiles .verifyUpload (fun _ f => f.id = fileId && f.status = .uploading)
        fun _ f => { f with
          status := .ready
          inputBytes := some stored.bytes
          inputEtag := some stored.etag }
      verifyUploads unanswered (pending.filter (·.id ≠ fileId)) (verified + count) failure
    | .headOf fileId (some none) =>
      verifyUploads unanswered (pending.filter (·.id ≠ fileId)) verified failure
    | .headOf fileId none =>
      verifyUploads unanswered (pending.filter (·.id ≠ fileId)) verified
        (some (.error "HEAD request failed"))
    | _ => .fail (.error "HEAD request failed")

variable (services : Services)

/-- The drain that follows an admission is a call of its own. -/
def completeUploads (batchId : Uuid) (ownership : BatchOwnership) (snapshot : EntitlementSnapshot) :
    Script conversion UploadCompletion := do
  let _ ← getOwnedBatch services batchId ownership
  let uploading ← query .findUploading fun v =>
    v.db.files.select fun f => f.batchId = batchId && f.status = .uploading
  let verifiedFiles ← verifyUploads uploading.length uploading 0 none
  let result ← admitReadyFiles services batchId ownership snapshot
  pure ⟨result, verifiedFiles, uploading.length - verifiedFiles⟩

end Pixaeron.Conversion
