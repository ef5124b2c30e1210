import Pixaeron.Conversion.Locks

/-! # What travels between the rows, the queues and the workers

Every outbox row and every request comes from an admission that committed, every event and every
stored object from a delivery, and an admitted file is followed until its result is in.
-/

namespace Pixaeron.Conversion

open Transactions

def Moved (e : LogEntry) (id : Uuid) : Prop :=
  ∃ f f', e.before.files.get id = some f ∧ f.status = .ready ∧ e.after.files.get id = some f' ∧
    f'.status = .queued

/-- The entry admitted a file and wrote its request to the outbox. -/
def Admits (e : LogEntry) (body : ConversionRequestMessage) : Prop :=
  e.error = none ∧ Moved e body.fileId ∧
    ∃ row ∈ e.after.outbox.rows, row.payload = body ∧ e.before.outbox.get row.id = none

/-- How often a request for the file has been sent. -/
def Outside.sent (x : Outside) (fileId : Uuid) : Nat :=
  x.requests.countP fun m => m.body.fileId = fileId

def WorkerEvent.isResult (event : WorkerEvent) : Bool := event.report ≠ .started

def Delivery.Reports (d : Delivery) (event : WorkerEvent) : Prop :=
  d.fileId = event.fileId ∧ d.batchId = event.batchId ∧ d.attempt = event.attempt

/-- The file needs no result of this attempt any more. -/
def Database.Outdated (db : Database) (event : WorkerEvent) : Prop :=
  ∀ f, db.files.get event.fileId = some f →
    f.status ∈ terminalFileStatuses ∨ event.attempt < f.attempt

/-- The way of a request to its queue. -/
structure Outgoing (p : Policy) (s : Shared conversion Call) : Prop where
  rows : ∀ row ∈ s.db.outbox.rows, ∃ e ∈ s.history, Admits e row.payload
  requests : ∀ m ∈ s.ext.requests, ∃ e ∈ s.history, Admits e m.body
  distinct : ∀ row ∈ s.db.outbox.rows, ∀ row' ∈ s.db.outbox.rows,
    row.payload.fileId = row'.payload.fileId → row = row'
  kept : ∀ e ∈ s.history, ∀ id, Moved e id →
    (∃ row ∈ s.db.outbox.rows, row.payload.fileId = id) ∨ 0 < s.ext.sent id
  past : ∀ e ∈ s.history, ∀ body, Admits e body →
    body.fileId ∈ s.db.issued ∧ body.batchId ∈ s.db.issued ∧
    ∀ f, s.db.files.get body.fileId = some f → f.batchId = body.batchId ∧ 2 ≤ f.status.rank
  once : p.clean = true → s.ext.phantomSends = 0 → ∀ id, s.ext.sent id ≤ 1

/-- The way from a delivery back to the rows. -/
structure Incoming (p : Policy) (s : Shared conversion Call) : Prop where
  delivered : ∀ d ∈ s.ext.deliveries, ∃ m, s.ext.requests[d.message]? = some m ∧
    m.body.fileId = d.fileId ∧ m.body.batchId = d.batchId ∧ d.attempt ≤ m.receives
  separate : (s.ext.deliveries.map fun d => (d.message, d.attempt)).Nodup
  reported : ∀ m ∈ s.ext.events, ∃ d ∈ s.ext.deliveries, d.Reports m.body
  stored : ∀ put ∈ s.ext.puts, put.delivery ∈ s.ext.deliveries ∧
    (put.key = outputObjectKey put.delivery.batchId put.delivery.fileId put.delivery.attempt ∨
      put.key = previewObjectKey put.delivery.batchId put.delivery.fileId put.delivery.attempt)
  stale : ∀ d ∈ s.ext.staleDeletes, d ∈ s.ext.deliveries
  attempted : p.closed = true → ∀ f ∈ s.db.files.rows,
    f.attempt = 0 ∨ ∃ d ∈ s.ext.deliveries, d.fileId = f.id ∧ d.attempt = f.attempt
  answered : ∀ i m, s.ext.requests[i]? = some m → m.deleted = true → ∃ d ∈ s.ext.deliveries,
    d.message = i ∧
    (d.attempt = m.receives ∨ d ∈ s.ext.staleDeletes) ∧
    ∃ ev ∈ s.ext.events, ev.body.isResult = true ∧ d.Reports ev.body
  settled : ∀ m ∈ s.ext.events, m.deleted = true → m.body.isResult = true → s.db.Outdated m.body

structure Traffic (p : Policy) (s : Shared conversion Call) :
    Prop extends Outgoing p s, Incoming p s

/-- What a commit takes from the queues. -/
def Commit.Backed (p : Policy) (x : Outside) (db : Database) : Commit → Prop
  | .start _ event _ =>
    p.closed = true → ∃ d ∈ x.deliveries, d.fileId = event.fileId ∧ d.attempt = event.attempt
  | .publish deliveredIds _ _ => ∀ id ∈ deliveredIds, ∀ row, db.outbox.get id = some row →
    0 < x.sent row.payload.fileId
  | _ => True

variable {services : Services} {p : Policy} {e : LogEntry}

theorem traffic_initial (now : Nat) : Traffic p (start now).shared where
  rows _ h := by cases h
  requests _ h := by cases h
  distinct _ h := by cases h
  kept _ h := by cases h
  past _ h := by cases h
  once _ _ _ := Nat.zero_le _
  delivered _ h := by cases h
  separate := List.nodup_nil
  reported _ h := by cases h
  stored _ h := by cases h
  stale _ h := by cases h
  attempted _ _ h := by cases h
  answered i m h := by cases h
  settled _ h := by cases h

/-! ## The rows of the outbox -/

theorem Legal.of_issued {id : Uuid} {f' : ConversionFile} (h : Legal services p e)
    (hIssued : id ∈ e.before.issued) (hGet' : e.after.files.get id = some f') :
    ∃ f, e.before.files.get id = some f ∧ FileStep f f' := by
  rcases h.file_origin hGet' with hOld | ⟨_, _, _, _, drawn, hAllowed, _, hId, _⟩
  · exact hOld
  · obtain ⟨_, _, _, _, _, _, hFiles⟩ := hAllowed
    simp only [Database.acceptsFiles, Bool.and_eq_true, List.all_eq_true,
      decide_eq_true_eq] at hFiles
    exact absurd hIssued (hFiles.1 id hId)

theorem Moved.committed {id : Uuid} (h : Moved e id)
    (hLegal : Legal services p e) : e.error = none := by
  obtain ⟨f, f', hGet, hReady, hGet', hQueued⟩ := h
  by_contra hFailed
  rw [hLegal.kept hFailed] at hGet'
  cases hGet.symm.trans hGet'
  rw [hReady] at hQueued
  cases hQueued

/-- A commit leaves the outbox as it is, settles some of its rows, or adds those of an admission. -/
theorem Commit.outbox_cases {c : Commit} (services : Services) (db : Database)
    (hNumbered : ∀ row ∈ db.outbox.rows, row.id < db.outboxSeq) :
    (c.apply services db).outbox = db.outbox ∨
    (∃ deliveredIds failedIds now, c = .publish deliveredIds failedIds now) ∨
    ∃ a, c = .admission a ∧ (c.apply services db).outbox.rows =
      db.outbox.rows ++ ((a.messages services).zipIdx db.outboxSeq).map
        (outboxRow a.startedAt) := by
  cases c with
  | publish deliveredIds failedIds now => exact .inr (.inl ⟨deliveredIds, failedIds, now, rfl⟩)
  | admission a => exact .inr (.inr ⟨a, rfl, Admission.write_outbox hNumbered⟩)
  | _ => exact .inl rfl

theorem get_publish {db : Database} {deliveredIds failedIds : List Nat} {now id : Nat} :
    ((Commit.publish deliveredIds failedIds now).apply services db).outbox.get id =
      ((db.outbox.get id).filter fun _ => id ∉ deliveredIds).map fun row =>
        if id ∈ failedIds then row.backOff now else row := by
  rw [Commit.apply, Database.get_backOffFailed, Database.get_deleteDelivered]

theorem mem_outboxRows {a : Admission} {n : Nat} {row : OutboxEvent}
    (h : row ∈ ((a.messages services).zipIdx n).map (outboxRow a.startedAt)) :
    n ≤ row.id ∧ ∃ file ∈ a.claimed, row.payload = requestFor a.batch a.outputRetention file ∧
      a.claimed[row.id - n]? = some file := by
  obtain ⟨⟨⟨queue, payload⟩, i⟩, hMem, rfl⟩ := List.mem_map.mp h
  obtain ⟨hFrom, hAt⟩ := List.mem_zipIdx_iff_le_and_getElem?_sub.mp hMem
  obtain ⟨file, hFile, hEq⟩ := List.getElem?_map ▸ hAt |> Option.map_eq_some_iff.mp
  cases hEq
  exact ⟨hFrom, file, List.mem_of_getElem? hFile, rfl, hFile⟩

theorem exists_outboxRow {a : Admission} {file : ClaimedFile} (n : Nat) (hFile : file ∈ a.claimed) :
    ∃ row ∈ ((a.messages services).zipIdx n).map (outboxRow a.startedAt),
      row.payload = requestFor a.batch a.outputRetention file ∧ n ≤ row.id := by
  obtain ⟨i, hi⟩ := List.mem_iff_getElem?.mp hFile
  let message :=
    (queueFor services a.snapshot a.tierQueue file, requestFor a.batch a.outputRetention file)
  have hMessage : (a.messages services)[i]? = some message := by
    rw [Admission.messages, List.getElem?_map, hi, Option.map_some]
  refine ⟨outboxRow a.startedAt (message, n + i), ?_, rfl, Nat.le_add_right _ _⟩
  refine List.mem_map_of_mem (List.mem_zipIdx_iff_le_and_getElem?_sub.mpr ⟨Nat.le_add_right _ _,
    ?_⟩)
  rw [Nat.add_sub_cancel_left]
  exact hMessage

theorem Admission.Allowed.moved {a : Admission} (h : a.Allowed services p e)
    (hApply : e.after = a.write services e.before) {file : ClaimedFile}
    (hFile : file ∈ a.claimed) : Moved e file.id := by
  obtain ⟨f, hGet, hReady, _⟩ := h.claimed file hFile
  refine ⟨f, { f with status := .queued, expiresAt := a.retentionExpiresAt }, hGet, hReady, ?_, rfl⟩
  rw [hApply, h.get_claimed (List.mem_map_of_mem hFile), hGet, Option.map_some]

/-- A row after an entry was there before it with the same payload, or the entry admitted it. -/
theorem Legal.row_origin {row : OutboxEvent} (h : Legal services p e)
    (hCons : Consistent e.before e.endedAt) (hRow : row ∈ e.after.outbox.rows) :
    (∃ old ∈ e.before.outbox.rows, old.id = row.id ∧ old.payload = row.payload) ∨
    Admits e row.payload ∧ e.before.outboxSeq ≤ row.id := by
  obtain ⟨c, hAllowed, hApply⟩ := h.commit
  rcases c.outbox_cases services e.before hCons.numbered with
    hSame | ⟨deliveredIds, failedIds, now, rfl⟩ | ⟨a, rfl, hRows⟩
  · rw [hApply, hSame] at hRow
    exact .inl ⟨row, hRow, rfl, rfl⟩
  · have hGet := Table.get_of_mem hRow
    rw [hApply, get_publish] at hGet
    obtain ⟨old, hOld, hEq⟩ := Option.map_eq_some_iff.mp hGet
    refine .inl ⟨old, Table.mem_of_get (Option.filter_eq_some_iff.mp hOld).1, ?_⟩
    split at hEq <;> (rw [← hEq]; exact ⟨rfl, rfl⟩)
  · have hMem := hRow
    rw [hApply, hRows, List.mem_append] at hMem
    rcases hMem with hOld | hNew
    · exact .inl ⟨row, hOld, rfl, rfl⟩
    · obtain ⟨hFrom, file, hFile, hPayload, _⟩ := mem_outboxRows hNew
      have hMoved := Admission.Allowed.moved hAllowed hApply hFile
      refine .inr ⟨⟨hMoved.committed h, by rw [hPayload]; exact hMoved, row, hRow, rfl, ?_⟩, hFrom⟩
      exact Table.get_eq_none_iff.mpr fun old hOld hId =>
        absurd (hCons.numbered old hOld) (by omega)

/-- A row is still there after an entry with the same payload, unless it was published. -/
theorem Legal.row_stays {row : OutboxEvent} {c : Commit} (hCons : Consistent e.before e.endedAt)
    (hApply : e.after = c.apply services e.before) (hRow : row ∈ e.before.outbox.rows) :
    (∃ row' ∈ e.after.outbox.rows, row'.id = row.id ∧ row'.payload = row.payload) ∨
    ∃ deliveredIds failedIds now, c = .publish deliveredIds failedIds now ∧
      row.id ∈ deliveredIds := by
  rcases c.outbox_cases services e.before hCons.numbered with
    hSame | ⟨deliveredIds, failedIds, now, rfl⟩ | ⟨a, rfl, hRows⟩
  · exact .inl ⟨row, by rw [hApply, hSame]; exact hRow, rfl, rfl⟩
  · by_cases hDelivered : row.id ∈ deliveredIds
    · exact .inr ⟨_, _, _, rfl, hDelivered⟩
    · refine .inl ⟨if row.id ∈ failedIds then row.backOff now else row,
        Table.mem_of_get (k := row.id) ?_, ?_⟩
      · rw [hApply, get_publish, Table.get_of_mem hRow, Option.filter_some,
          if_pos (decide_eq_true hDelivered), Option.map_some]
      · split <;> exact ⟨rfl, rfl⟩
  · exact .inl ⟨row, by rw [hApply, hRows]; exact List.mem_append_left _ hRow, rfl, rfl⟩

theorem Legal.moved_row {id : Uuid} (h : Legal services p e) (hCons : Consistent e.before e.endedAt)
    (hMoved : Moved e id) : ∃ row ∈ e.after.outbox.rows, row.payload.fileId = id := by
  obtain ⟨f, f', hGet, hReady, hGet', hQueued⟩ := hMoved
  obtain ⟨a, _, hApply, hClaimed, _⟩ := h.queued hGet hGet' hReady hQueued
  obtain ⟨file, hFile, rfl⟩ := List.mem_map.mp hClaimed
  obtain ⟨row, hRow, hPayload, _⟩ := @exists_outboxRow services a file e.before.outboxSeq hFile
  refine ⟨row, ?_, congrArg ConversionRequestMessage.fileId hPayload⟩
  rw [hApply, Admission.write_outbox hCons.numbered]
  exact List.mem_append_right _ hRow

theorem Legal.new_row_unique {row row' : OutboxEvent} (h : Legal services p e)
    (hCons : Consistent e.before e.endedAt) (hRow : row ∈ e.after.outbox.rows)
    (hRow' : row' ∈ e.after.outbox.rows) (hNew : e.before.outboxSeq ≤ row.id)
    (hNew' : e.before.outboxSeq ≤ row'.id) (hFile : row.payload.fileId = row'.payload.fileId) :
    row.id = row'.id := by
  have hOld : ∀ r : OutboxEvent, e.before.outboxSeq ≤ r.id → e.before.outbox.get r.id = none := by
    intro r hFrom
    exact Table.get_eq_none_iff.mpr fun old hOld hId => absurd (hCons.numbered old hOld) (by omega)
  obtain ⟨c, hAllowed, hApply⟩ := h.commit
  rcases c.outbox_cases services e.before hCons.numbered with
    hSame | ⟨deliveredIds, failedIds, now, rfl⟩ | ⟨a, rfl, hRows⟩
  · rw [hApply, hSame] at hRow
    cases (hOld row hNew).symm.trans (Table.get_of_mem hRow)
  · have hGet := Table.get_of_mem hRow
    rw [hApply, get_publish, hOld row hNew] at hGet
    cases hGet
  · rw [hApply, hRows, List.mem_append] at hRow hRow'
    have hAdded : ∀ r : OutboxEvent, e.before.outboxSeq ≤ r.id → r ∉ e.before.outbox.rows := by
      intro r hFrom hMem
      cases (hOld r hFrom).symm.trans (Table.get_of_mem hMem)
    obtain ⟨_, file, _, hPayload, hAt⟩ := mem_outboxRows (hRow.resolve_left (hAdded row hNew))
    obtain ⟨_, file', _, hPayload', hAt'⟩ := mem_outboxRows (hRow'.resolve_left (hAdded row' hNew'))
    rw [hPayload, hPayload'] at hFile
    have hLess : row.id - e.before.outboxSeq < a.claimedIds.length := by
      rw [Admission.claimedIds, List.length_map]
      exact (List.getElem?_eq_some_iff.mp hAt).1
    have hIds : a.claimedIds[row.id - e.before.outboxSeq]? =
      a.claimedIds[row'.id - e.before.outboxSeq]? := by
      rw [Admission.claimedIds, List.getElem?_map, List.getElem?_map, hAt, hAt']
      exact congrArg some hFile
    have hSame := (List.getElem?_inj hLess hAllowed.distinct).mp hIds
    omega

theorem Admits.batchId {body : ConversionRequestMessage} (hAdmits : Admits e body)
    (h : Legal services p e) (hCons : Consistent e.before e.endedAt) :
    ∃ f f', e.before.files.get body.fileId = some f ∧
      f.batchId = body.batchId ∧ e.after.files.get body.fileId = some f' ∧ f'.batchId = f.batchId ∧
      f'.status = .queued := by
  obtain ⟨_, ⟨f, f', hGet, hReady, hGet', hQueued⟩, row, hRow, rfl, hFresh⟩ := hAdmits
  obtain ⟨a, hAllowed, hApply, _, hEq⟩ := h.queued hGet hGet' hReady hQueued
  refine ⟨f, f', hGet, ?_, hGet', by rw [hEq], hQueued⟩
  rw [hApply, Admission.write_outbox hCons.numbered, List.mem_append] at hRow
  have hNew := hRow.resolve_left fun hOld => by cases hFresh.symm.trans (Table.get_of_mem hOld)
  obtain ⟨_, file, hFile, hPayload, _⟩ := mem_outboxRows hNew
  obtain ⟨f₀, hGet₀, _, hBatchId, _⟩ := hAllowed.claimed file hFile
  rw [hPayload] at hGet ⊢
  cases hGet.symm.trans hGet₀
  exact hBatchId

theorem Commit.attempt_cases {c : Commit} {f f' : ConversionFile}
    (hAllowed : c.Allowed services p e) (hGet : e.before.files.get f.id = some f)
    (hGet' : (c.apply services e.before).files.get f.id = some f') :
    f'.attempt = f.attempt ∨ ∃ ids event startedAt, c = .start ids event startedAt ∧
      f.id = event.fileId ∧
      f'.attempt = event.attempt := by
  cases c.changes hAllowed hGet hGet' with
  | start hMem => exact .inr ⟨_, _, _, rfl, (hAllowed.2.2 f.id hMem).choose_spec.2.1, rfl⟩
  | @finish _ data =>
    cases data <;> exact .inl rfl
  | _ => exact .inl rfl

/-! ## Entries keep the invariant -/

theorem ConversionFileStatus.terminal_of_moves {status status' : ConversionFileStatus}
    (h : status' ∈ status.moves) (hTerminal : status ∈ terminalFileStatuses) :
    status' ∈ terminalFileStatuses := by
  revert h hTerminal
  cases status <;> cases status' <;> decide

theorem Database.Outdated.step {event : WorkerEvent} (hOutdated : e.before.Outdated event)
    (h : Legal services p e) (hIssued : event.fileId ∈ e.before.issued) :
    e.after.Outdated event := by
  intro f' hGet'
  obtain ⟨f, hGet, hStep⟩ := h.of_issued hIssued hGet'
  rcases hOutdated f hGet with hTerminal | hLater
  · exact .inl (ConversionFileStatus.terminal_of_moves hStep.progress hTerminal)
  · exact .inr (hLater.trans_le hStep.attempt)

section

variable {s : Shared conversion Call} (hTraffic : Traffic p s)

include hTraffic

theorem Traffic.of_delivery {d : Delivery} (hDelivery : d ∈ s.ext.deliveries) :
    d.fileId ∈ s.db.issued ∧
    d.batchId ∈ s.db.issued ∧ ∀ f, s.db.files.get d.fileId = some f →
      f.batchId = d.batchId ∧ 2 ≤ f.status.rank := by
  obtain ⟨m, hRequest, hFile, hBatch, _⟩ := hTraffic.delivered d hDelivery
  obtain ⟨e, he, hAdmits⟩ := hTraffic.requests m (List.mem_of_getElem? hRequest)
  rw [← hFile, ← hBatch]
  exact hTraffic.past e he m.body hAdmits

theorem Traffic.record {c : Commit} (hCons : Consistent s.db s.now) (hBefore : e.before = s.db)
    (hEnded : e.endedAt = s.now) (hLegal : Legal services p e) (hAllowed : c.Allowed services p e)
    (hApply : e.after = c.apply services e.before) (hBacked : c.Backed p s.ext s.db) :
    Traffic p (s.record e) := by
  rw [← hBefore, ← hEnded] at hCons
  have hIssued := hLegal.issued
  rw [← hBefore] at hBacked
  exact {
    rows := by
      intro row hRow
      rcases hLegal.row_origin hCons hRow with ⟨old, hOld, _, hPayload⟩ | ⟨hAdmits, _⟩
      · obtain ⟨e', he', hAdmits⟩ := hTraffic.rows old (hBefore ▸ hOld)
        exact ⟨e', List.mem_append_left _ he', hPayload ▸ hAdmits⟩
      · exact ⟨e, by simp, hAdmits⟩
    requests := by
      intro m hm
      obtain ⟨e', he', hAdmits⟩ := hTraffic.requests m hm
      exact ⟨e', List.mem_append_left _ he', hAdmits⟩
    distinct := by
      have hMixed : ∀ old ∈ e.before.outbox.rows, ∀ body,
        Admits e body → old.payload.fileId ≠ body.fileId := by
        intro old hOld body hAdmits hSame
        obtain ⟨e', he', hPast⟩ := hTraffic.rows old (hBefore ▸ hOld)
        obtain ⟨_, ⟨f, _, hGet, hReady, _⟩, _⟩ := hAdmits
        have hRank := ((hTraffic.past e' he' _ hPast).2.2 f (by rw [hSame, ← hBefore, hGet])).2
        rw [hReady] at hRank
        exact absurd hRank (by decide)
      intro row hRow row' hRow' hFile
      suffices hId : row.id = row'.id by
        have hGet := Table.get_of_mem hRow
        rw [hId, Table.get_of_mem hRow'] at hGet
        exact (Option.some.inj hGet).symm
      rcases hLegal.row_origin hCons hRow with ⟨old, hOld, hId, hPayload⟩ | ⟨hAdmits, hNew⟩
      · rcases hLegal.row_origin hCons hRow' with ⟨old', hOld', hId', hPayload'⟩ | ⟨hAdmits', _⟩
        · rw [← hPayload, ← hPayload'] at hFile
          rw [hBefore] at hOld hOld'
          rw [← hId, ← hId', hTraffic.distinct old hOld old' hOld' hFile]
        · exact absurd (hPayload ▸ hFile) (hMixed old hOld _ hAdmits')
      · rcases hLegal.row_origin hCons hRow' with ⟨old', hOld', hId', hPayload'⟩ | ⟨_, hNew'⟩
        · exact absurd (hPayload' ▸ hFile.symm) (hMixed old' hOld' _ hAdmits)
        · exact hLegal.new_row_unique hCons hRow hRow' hNew hNew' hFile
    kept := by
      intro e' he' id hMoved
      rcases List.mem_append.mp he' with hOld | hNew
      · rcases hTraffic.kept e' hOld id hMoved with ⟨row, hRow, rfl⟩ | hSent
        · rw [← hBefore] at hRow
          rcases Legal.row_stays hCons hApply hRow with ⟨row', hRow', _, hPayload⟩ |
            ⟨_, _, _, rfl, hDelivered⟩
          · exact .inl ⟨row', hRow', by rw [hPayload]⟩
          · exact .inr (hBacked row.id hDelivered row (Table.get_of_mem hRow))
        · exact .inr hSent
      · rw [List.mem_singleton.mp hNew] at hMoved
        exact .inl (hLegal.moved_row hCons hMoved)
    past := by
      intro e' he' body hAdmits
      rcases List.mem_append.mp he' with hOld | hNew
      · obtain ⟨hMem, hBatch, hPast⟩ := hTraffic.past e' hOld body hAdmits
        rw [← hBefore] at hMem hBatch hPast
        refine ⟨hIssued hMem, hIssued hBatch, fun f' hGet' => ?_⟩
        obtain ⟨f, hGet, hStep⟩ := hLegal.of_issued hMem hGet'
        obtain ⟨hBatchId, hRank⟩ := hPast f hGet
        exact ⟨hStep.batchId.trans hBatchId,
          hRank.trans (ConversionFileStatus.rank_le_of_moves hStep.progress)⟩
      · rw [List.mem_singleton.mp hNew] at hAdmits
        obtain ⟨f, f', hGet, hBatchId, hGet', hSame, hQueued⟩ := hAdmits.batchId hLegal hCons
        refine ⟨hIssued ?_, hIssued ?_, fun f'' hGet'' => ?_⟩
        · rw [← Table.key_of_get hGet]
          exact hCons.issuedFiles f (Table.mem_of_get hGet)
        · obtain ⟨b, hb⟩ := hCons.owned f (Table.mem_of_get hGet)
          rw [← hBatchId, ← Table.key_of_get hb]
          exact hCons.issuedBatches b (Table.mem_of_get hb)
        · cases hGet'.symm.trans hGet''
          exact ⟨hSame.trans hBatchId, by rw [hQueued]; decide⟩
    once := hTraffic.once
    delivered := hTraffic.delivered
    separate := hTraffic.separate
    reported := hTraffic.reported
    stored := hTraffic.stored
    stale := hTraffic.stale
    attempted := by
      intro hClosed f' hf'
      rcases hLegal.file_origin (Table.get_of_mem hf') with ⟨f, hGet, hStep⟩ |
        ⟨_, _, _, _, _, _, _, _, hNew⟩
      · have hKey := Table.key_of_get hGet
        have hGet' : e.after.files.get f'.id = some f' := Table.get_of_mem hf'
        rw [hApply, ← hKey] at hGet'
        rcases c.attempt_cases hAllowed (hKey ▸ hGet) hGet' with hSame |
          ⟨ids, event, _, rfl, hId, hAttempt⟩
        · rw [hSame, ← hKey]
          exact hTraffic.attempted hClosed f (hBefore ▸ Table.mem_of_get hGet)
        · obtain ⟨d, hd, hFile, hEq⟩ := hBacked hClosed
          exact .inr ⟨d, hd, by rw [hFile, ← hId, hKey], by rw [hEq, hAttempt]⟩
      · rw [hNew]
        exact .inl rfl
    answered := hTraffic.answered
    settled := by
      intro m hm hDeleted hResult
      obtain ⟨d, hd, hFile, _⟩ := hTraffic.reported m hm
      have hMem := (hTraffic.of_delivery hd).1
      rw [hFile, ← hBefore] at hMem
      have hOutdated := hTraffic.settled m hm hDeleted hResult
      rw [← hBefore] at hOutdated
      exact hOutdated.step hLegal hMem }

end

end Pixaeron.Conversion
