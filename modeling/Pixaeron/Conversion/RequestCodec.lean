import Pixaeron.Conversion.Messages
import Pixaeron.Conversion.Runs

/-! # Requests on their way to the workers

The request for a file is put together from what the file's upload was measured to be. The API
admits a file as soon as it has an entity tag, and a worker refuses a request whose tag is empty.
-/

namespace Pixaeron.Conversion

open Transactions Text.Json

/-! ## The measure of an upload -/

/-- What the storage client gives for a HEAD request. -/
structure HeadObjectOutput where
  contentLength : Option Nat
  eTag : Option String
  checksumSHA256 : Option String

def quotationMark : Char := Char.ofNat 34

def withoutQuotationMarks (text : String) : String :=
  String.ofList (text.toList.filter (· ≠ quotationMark))

/-- The answer of `head` for an object that is there. -/
def HeadObjectOutput.stored (head : HeadObjectOutput) : StoredObject where
  bytes := head.contentLength.getD 0
  etag := withoutQuotationMarks (head.eTag.getD "")
  checksumSha256 := head.checksumSHA256

def ConversionFile.verified (f : ConversionFile) (stored : StoredObject) : ConversionFile :=
  { f with status := .ready, inputBytes := some stored.bytes, inputEtag := some stored.etag }

theorem ConversionFile.verified_id (f : ConversionFile) (stored : StoredObject) :
    (f.verified stored).id = f.id := rfl

/-- The files that `verifyUpload` finds are the verified ones. -/
theorem get_verify {services : Services} {ids : List Uuid} {stored : StoredObject} {db : Database}
    {file : ConversionFile} (hFile : file ∈ db.files.rows) (hMem : file.id ∈ ids) :
    ((Commit.verify ids stored).apply services db).files.get file.id =
      some (file.verified stored) := by
  have hApply : ((Commit.verify ids stored).apply services db).files =
      db.files.modify ids (fun f => f.verified stored) (fun f => f.verified_id stored) := rfl
  rw [hApply, Table.get_modify_of_mem hMem, Table.get_of_mem hFile]
  rfl

theorem withoutQuotationMarks_ne (text : String) :
    withoutQuotationMarks text ≠ "" ↔ ∃ c ∈ text.toList, c ≠ quotationMark := by
  have hEmpty : withoutQuotationMarks text = "" ↔ text.toList.filter (· ≠ quotationMark) = [] := by
    rw [withoutQuotationMarks, ← String.toList_inj, String.toList_ofList]
    rfl
  rw [Ne, hEmpty, List.filter_eq_nil_iff]
  simp

/-! ## The text of a request -/

def ConversionRequestMessage.text (request : ConversionRequestMessage) :
    Messages.ConversionRequest where
  fileId := utf16 request.fileId.text
  batchId := utf16 request.batchId.text
  inputObjectKey := utf16 request.inputObjectKey
  inputEtag := utf16 request.inputEtag
  outputRetention := request.outputRetention
  mode := request.mode
  strength := request.strength

/-- A worker reads the request from its text, in whatever order the database has kept its fields. -/
def Readable (request : ConversionRequestMessage) : Prop :=
  ∀ written : List (JsString × Scalar), written.Perm request.text.fields →
    Messages.parseConversionRequest (stringify written) = some request.text

theorem readable_iff (request : ConversionRequestMessage) :
    Readable request ↔ request.inputObjectKey ≠ "" ∧ request.inputEtag ≠ "" := by
  have hComplete : request.text.Complete ↔
    request.inputObjectKey ≠ "" ∧ request.inputEtag ≠ "" := by
    have hFile := request.fileId.nonempty
    have hBatch := request.batchId.nonempty
    simp only [Messages.ConversionRequest.Complete, ConversionRequestMessage.text, Ne, utf16_eq_nil,
      hFile, hBatch, not_false_eq_true, true_and]
  rw [← hComplete]
  constructor
  · intro h
    exact (Messages.parseConversionRequest_written (.refl _)).1 (h _ (.refl _))
  · intro h written hPerm
    exact (Messages.parseConversionRequest_written hPerm).2 h

theorem readable_iff_parse (request : ConversionRequestMessage) :
    Readable request ↔ parseConversionRequest request = some request := by
  have hFile := request.fileId.nonempty
  have hBatch := request.batchId.nonempty
  rw [readable_iff, parseConversionRequest]
  simp [isNonEmptyString, hFile, hBatch]

/-! ## The requests of a run -/

variable {services : Services} {p : Policy} {e : LogEntry}

structure MadeOf (request : ConversionRequestMessage) (f : ConversionFile) : Prop where
  ready : f.status = .ready
  inputObjectKey : f.inputObjectKey = request.inputObjectKey
  inputEtag : f.inputEtag = some request.inputEtag

/-- Every file has a key, and every outbox row comes from a file that was ready when its request was
made. -/
structure Requested (history : List LogEntry) (db : Database) : Prop where
  keyed : ∀ f ∈ db.files.rows, f.inputObjectKey ≠ ""
  rows : ∀ row ∈ db.outbox.rows, ∃ e ∈ history, ∃ f,
    e.before.files.get row.payload.fileId = some f ∧
    MadeOf row.payload f ∧ f.inputObjectKey ≠ ""

theorem inputObjectKey_newFile (batchId fileId : Uuid) (expiresAt : Nat) :
    (newFile batchId fileId expiresAt).inputObjectKey ≠ "" := by
  intro h
  have hLength := congrArg String.length h
  simp only [newFile, String.length_append, String.length_empty] at hLength
  have hStart : (toString "inputs/").length = 7 := rfl
  rw [hStart] at hLength
  omega

theorem Legal.keyed (h : Legal services p e)
    (hKeyed : ∀ f ∈ e.before.files.rows, f.inputObjectKey ≠ "") :
    ∀ f ∈ e.after.files.rows, f.inputObjectKey ≠ "" := by
  intro f' hMem
  obtain ⟨f, hGet, hStep⟩ | ⟨_, _, _, _, _, _, _, _, hNew⟩ := h.file_origin (Table.get_of_mem hMem)
  · rw [hStep.inputObjectKey]
    exact hKeyed f (Table.mem_of_get hGet)
  · rw [hNew]
    exact inputObjectKey_newFile _ _ _

/-- A row after an entry was there before it with the same payload, or was made of a file that was
ready. -/
theorem Legal.row_source {row : OutboxEvent} (h : Legal services p e)
    (hCons : Consistent e.before e.endedAt) (hRow : row ∈ e.after.outbox.rows) :
    (∃ old ∈ e.before.outbox.rows, old.payload = row.payload) ∨
    ∃ f, e.before.files.get row.payload.fileId = some f ∧ MadeOf row.payload f := by
  obtain ⟨old, hOld, _, hSame⟩ | ⟨⟨_, ⟨f, f', hGet, hReady, hGet', hQueued⟩, _⟩, hFrom⟩ :=
    h.row_origin hCons hRow
  · exact .inl ⟨old, hOld, hSame⟩
  · obtain ⟨a, hAllowed, hApply, _, _⟩ := h.queued hGet hGet' hReady hQueued
    rw [hApply, Admission.write_outbox hCons.numbered, List.mem_append] at hRow
    obtain hOld | hNew := hRow
    · exact .inl ⟨row, hOld, rfl⟩
    · obtain ⟨_, file, hFile, hPayload, _⟩ := mem_outboxRows hNew
      obtain ⟨f, hGet, hReady, _, hClaimed, _, hTag⟩ := hAllowed.claimed file hFile
      obtain ⟨tag, hTag⟩ := Option.isSome_iff_exists.1 hTag
      rw [hPayload]
      refine .inr ⟨f, hGet, hReady, congrArg ClaimedFile.inputObjectKey hClaimed, ?_⟩
      rw [requestFor, ← hClaimed, ConversionFile.claimed, hTag, Option.getD_some]

theorem Requested.step {history : List LogEntry} (hRequested : Requested history e.before)
    (h : Legal services p e) (hCons : Consistent e.before e.endedAt) :
    Requested (history ++ [e]) e.after where
  keyed := h.keyed hRequested.keyed
  rows row hRow := by
    obtain ⟨old, hOld, hSame⟩ | ⟨f, hGet, hMade⟩ := h.row_source hCons hRow
    · obtain ⟨e', he', hSource⟩ := hRequested.rows old hOld
      rw [hSame] at hSource
      exact ⟨e', List.mem_append_left _ he', hSource⟩
    · exact ⟨e, List.mem_append_right _ (List.mem_singleton_self e), f, hGet, hMade,
        hRequested.keyed f (Table.mem_of_get hGet)⟩

theorem requested_of_run {now : Nat} {w : World conversion Call Outcome}
    (h : World.Leads (system services) (start now) w) :
    Requested w.shared.history w.shared.db := by
  have hRun : Requested ([] ++ w.shared.history) w.shared.db :=
    (system_path h).recorded (P := fun past (db : Database) _ => Requested past db)
      (fun _ _ _ _ _ hSame => hSame)
      (fun _ _ _ hLegal hHere => hHere.step hLegal.1 hLegal.2)
      ⟨fun f hf => (by cases hf), fun row hRow => (by cases hRow)⟩
  exact hRun

/-- A request can be read by a worker exactly when the HEAD request for its upload answered with an
entity tag that has more to it than quotation marks. -/
theorem requests_readable_iff {now : Nat} {w : World conversion Call Outcome}
    (h : World.Leads (system services) (start now) w) :
    (∀ file ∈ w.shared.db.files.rows, ∀ (head : HeadObjectOutput) (batch : ConversionBatch)
      (outputRetention : ConversionRetentionClass),
      ∃ verified, ((Commit.verify [file.id] head.stored).apply services w.shared.db).files.get
        file.id = some verified ∧
        (Readable (requestFor batch outputRetention verified.claimed) ↔
          ∃ c ∈ (head.eTag.getD "").toList, c ≠ quotationMark)) ∧
    ∀ row ∈ w.shared.db.outbox.rows, ∃ e ∈ w.shared.history, ∃ f,
      e.before.files.get row.payload.fileId = some f ∧
      f.status = .ready ∧ (Readable row.payload ↔ f.inputEtag ≠ some "") := by
  have hRequested := requested_of_run h
  constructor
  · intro file hFile head batch outputRetention
    have hKey : file.inputObjectKey ≠ "" := hRequested.keyed file hFile
    refine ⟨_, get_verify hFile (List.mem_singleton_self _), ?_⟩
    rw [readable_iff, ← withoutQuotationMarks_ne]
    show file.inputObjectKey ≠ "" ∧ withoutQuotationMarks (head.eTag.getD "") ≠ "" ↔ _
    rw [and_iff_right hKey]
  · intro row hRow
    obtain ⟨e, he, f, hGet, hMade, hKey⟩ := hRequested.rows row hRow
    refine ⟨e, he, f, hGet, hMade.ready, ?_⟩
    rw [readable_iff, ← hMade.inputObjectKey, hMade.inputEtag, and_iff_right hKey, Ne, Ne,
      Option.some.injEq]

theorem requests_readable_iff_tagged : ∃ w, World.Leads (system Sample.services) (start 0) w ∧
    w.shared.db.files.rows.map (fun f => (f.id, f.status)) = [(Sample.fileId, .completed)] ∧
    ∀ row ∈ w.shared.db.outbox.rows, ∃ e ∈ w.shared.history, ∃ f,
      e.before.files.get row.payload.fileId = some f ∧
      f.status = .ready ∧ (Readable row.payload ↔ f.inputEtag ≠ some "") := by
  obtain ⟨w, hLeads, hFiles, _⟩ := Sample.conversionRun_leads
  exact ⟨w, hLeads, hFiles, (requests_readable_iff hLeads).2⟩

namespace Sample

/-- An upload of 40 bytes whose HEAD answer names no entity tag. -/
def untagged : HeadObjectOutput := ⟨some 40, none, none⟩

def untaggedRun : List (Action conversion Call) :=
  [.spawn 0 (.createBatch ⟨"alice", false, "key", 1, .lossy, .medium, none⟩ plan ⟨batchId, [fileId],
    ""⟩), .run 0, .spawn 1 (.completeUploads batchId alice plan), .run 1, .run 1,
    .answer 1 (.headOf fileId (some (some untagged.stored)))] ++ runs 1 14

end Sample

theorem untagged_unreadable : ∃ w, World.Leads (system Sample.services) (start 0) w ∧
    w.shared.db.files.rows.map (fun f => (f.id, f.status)) = [(Sample.fileId, .queued)] ∧
    ∃ row ∈ w.shared.db.outbox.rows, ¬ Readable row.payload := by
  have hRun : ((World.run (system Sample.services) (start 0) Sample.untaggedRun).map fun w =>
      (w.shared.db.files.rows.map (fun f => (f.id, f.status)),
        w.shared.db.outbox.rows.map fun row => row.payload.inputEtag)) =
      some ([(Sample.fileId, .queued)], [""]) := by decide
  obtain ⟨w, hW, h⟩ := Option.map_eq_some_iff.mp hRun
  simp only [Prod.mk.injEq] at h
  obtain ⟨hFiles, hTags⟩ := h
  obtain ⟨row, hRow, hTag⟩ := List.mem_map.1 (hTags ▸ List.mem_singleton_self "")
  refine ⟨w, World.leads_of_run hW, hFiles, row, hRow, ?_⟩
  intro hReadable
  exact ((readable_iff row.payload).1 hReadable).2 hTag

end Pixaeron.Conversion
