import Pixaeron.Conversion.Deliveries

/-! # Files that nothing works on

An admitted file waits for an outbox row, a request or a result. A worker may take the request
away with an old receipt handle, and then its result may come too late to count.
-/

namespace Pixaeron.Conversion

open Transactions

/-- An outbox row, a request, or a result that still counts is on its way for the file. -/
def Awaited (s : Shared conversion Call) (f : ConversionFile) : Prop :=
  (∃ row ∈ s.db.outbox.rows, row.payload.fileId = f.id) ∨
  (∃ m ∈ s.ext.requests, m.body.fileId = f.id ∧ m.deleted = false) ∨
  ∃ m ∈ s.ext.events, m.deleted = false ∧ m.body.isResult = true ∧ m.body.fileId = f.id ∧
    f.attempt ≤ m.body.attempt

def NoneStranded (s : Shared conversion Call) : Prop :=
  ∀ f ∈ s.db.files.rows, f.status = .queued ∨ f.status = .processing →
    s.now < f.expiresAt → Awaited s f

/-- No file has got beyond the attempt of a delivery that deleted the file's request while a
later receive had it. -/
def DeletesInTime (s : Shared conversion Call) : Prop :=
  ∀ d ∈ s.ext.staleDeletes, ∀ f ∈ s.db.files.rows, f.id = d.fileId → f.attempt ≤ d.attempt

/-- Worker events come from workers only. -/
def Policy.fromWorkers : Policy := ⟨fun _ => none, false, true⟩

theorem Policy.fromWorkers_assumes (e : LogEntry) : Policy.fromWorkers.Assumes e :=
  ⟨fun _ _ hCap => (by cases hCap), fun hClean => by cases hClean⟩

section

variable {services : Services} {p : Policy} {s : Shared conversion Call} {f : ConversionFile}

theorem ConversionFileStatus.before_queued {status status' : ConversionFileStatus}
    (h : status' ∈ status.moves) (hStatus : status' = .queued ∨ status' = .processing) :
    (status = .queued ∨ status = .processing) ∨ status = .ready ∧ status' = .queued := by
  revert h hStatus
  cases status <;> cases status' <;> decide

theorem moved_of_queued (h : (ledger services p).Sound s) (hf : f ∈ s.db.files.rows)
    (hStatus : f.status = .queued ∨ f.status = .processing) : ∃ e ∈ s.history, Moved e f.id := by
  have hAll := h.1.preserves (P := fun (db : Database) _ => ∀ id f, db.files.get id = some f →
    f.status = .queued ∨ f.status = .processing → ∃ e ∈ s.history, Moved e id)
    (fun _ _ _ _ hSame => hSame) (fun e he hLegal hHere id f' hGet' hStatus' => ?_) fun id f hGet =>
      by cases hGet
  · exact hAll f.id f (Table.get_of_mem hf) hStatus
  · rcases hLegal.file_origin hGet' with ⟨f, hGet, hStep⟩ | ⟨_, _, _, _, _, _, _, _, rfl⟩
    · rcases ConversionFileStatus.before_queued hStep.progress hStatus' with hBefore |
        ⟨hReady, hQueued⟩
      · exact hHere id f hGet hBefore
      · exact ⟨e, he, f, f', hGet, hReady, hGet', hQueued⟩
    · simp [newFile] at hStatus'

variable (hTraffic : Traffic p s)

include hTraffic

theorem Traffic.request_of_delivery {d : Delivery} {m : Request} (hd : d ∈ s.ext.deliveries)
    (hAt : s.ext.requests[d.message]? = some m) :
    m.body.fileId = d.fileId ∧ d.attempt ≤ m.receives := by
  obtain ⟨m', hAt', hFile, _, hReceives⟩ := hTraffic.delivered d hd
  cases hAt.symm.trans hAt'
  exact ⟨hFile, hReceives⟩

theorem Traffic.current_request (hClosed : p.closed = true) (hf : f ∈ s.db.files.rows)
    (hSent : 0 < s.ext.sent f.id) :
    ∃ (i : Nat) (m : Request), s.ext.requests[i]? = some m ∧ m.body.fileId = f.id ∧
      f.attempt ≤ m.receives := by
  rcases hTraffic.attempted hClosed f hf with hFirst | ⟨d, hd, hFile, hAttempt⟩
  · rw [Outside.sent, List.countP_pos_iff] at hSent
    obtain ⟨m, hm, hId⟩ := hSent
    obtain ⟨i, hi⟩ := List.mem_iff_getElem?.mp hm
    exact ⟨i, m, hi, of_decide_eq_true hId, by omega⟩
  · obtain ⟨m, hAt, hId, _, hReceives⟩ := hTraffic.delivered d hd
    exact ⟨d.message, m, hAt, hId.trans hFile, hAttempt ▸ hReceives⟩

/-- Who deletes the request of the current attempt has reported a result that still counts. -/
theorem Traffic.awaited_of_deleted (hf : f ∈ s.db.files.rows)
    (hOpen : f.status ∉ terminalFileStatuses) (hInTime : DeletesInTime s) {i : Nat} {m : Request}
    (hAt : s.ext.requests[i]? = some m) (hId : m.body.fileId = f.id)
    (hCurrent : f.attempt ≤ m.receives) (hDeleted : m.deleted = true) : Awaited s f := by
  obtain ⟨d, hd, rfl, hLast, ev, hev, hResult, hFile, _, hAttempt⟩ :=
    hTraffic.answered i m hAt hDeleted
  have hSame : d.fileId = f.id := (hTraffic.request_of_delivery hd hAt).1.symm.trans hId
  have hCounts : f.attempt ≤ d.attempt := by
    rcases hLast with hEq | hStale
    · exact hEq ▸ hCurrent
    · exact hInTime d hStale f hf hSame.symm
  refine .inr (.inr ⟨ev, hev, ?_, hResult, hFile ▸ hSame, hAttempt ▸ hCounts⟩)
  by_contra hNot
  have hOutdated :=
    hTraffic.settled ev hev (by simpa using hNot) hResult f
      (by rw [← hFile, hSame]; exact Table.get_of_mem hf)
  rcases hOutdated with hTerminal | hOlder
  · exact hOpen hTerminal
  · omega

end

theorem none_stranded {services : Services} {now : Nat} {w : World conversion Call Outcome}
    (h : World.Leads (pipeline services) (start now) w)
    (hInTime : DeletesInTime w.shared) : NoneStranded w.shared := by
  have hSound : (ledger services .fromWorkers).Sound w.shared :=
    sound_of_run verified_pipeline h fun e _ => Policy.fromWorkers_assumes e
  have hTraffic : Traffic .fromWorkers w.shared := hSound.2
  intro f hf hStatus _
  obtain ⟨e, he, hMoved⟩ := moved_of_queued hSound hf hStatus
  rcases hTraffic.kept e he f.id hMoved with hRow | hSent
  · exact .inl hRow
  · obtain ⟨i, m, hAt, hId, hCurrent⟩ := hTraffic.current_request rfl hf hSent
    cases hDeleted : m.deleted with
    | false => exact .inr (.inl ⟨m, List.mem_of_getElem? hAt, hId, hDeleted⟩)
    | true =>
      have hOpen : f.status ∉ terminalFileStatuses := by
        rcases hStatus with hEq | hEq <;> rw [hEq] <;> decide
      exact hTraffic.awaited_of_deleted hf hOpen hInTime hAt hId hCurrent hDeleted

theorem none_stranded_delivered : ∃ w, World.Leads (pipeline Sample.services) (start 0) w ∧
    w.shared.db.files.rows.map (fun f => (f.id, f.status)) = [(Sample.fileId, .queued)] ∧
    NoneStranded w.shared := by
  have hRun : ((World.run (pipeline Sample.services) (start 0) Sample.deliveredRun).map fun w =>
      (w.shared.db.files.rows.map (fun f => (f.id, f.status)), w.shared.ext.staleDeletes)) =
      some ([(Sample.fileId, .queued)], []) := by decide
  obtain ⟨w, hW, h⟩ := Option.map_eq_some_iff.mp hRun
  obtain ⟨hFiles, hStale⟩ := Prod.mk.inj h
  refine ⟨w, World.leads_of_run hW, hFiles, none_stranded (World.leads_of_run hW) ?_⟩
  rw [DeletesInTime, hStale]
  exact fun d hd => by cases hd

/-- The request is received twice. The second worker reports its start and dies, the first one
reports its result and deletes the request, and the result comes too late to count. -/
def Sample.strandingRun : List (Action conversion Call) :=
  admission ++ sending 2 ++ runs 2 2 ++ [.spawn 3 (.deliver 0 request), .answer 3 .ok] ++
    [.spawn 4 (.deliver 0 request), .answer 4 .ok, .kill 4] ++
    [.spawn 5 (.consume 1 ⟨fileId, batchId, 2, .started⟩)] ++ runs 5 2 ++
      [.answer 5 (.deleted true)] ++
    [.answer 3 (.input []), .answer 3 (.compressed (.ok .saved [1] .jpeg "image/jpeg" 1 4 4)),
      .answer 3 .ok] ++
    reporting 3 ++ [.spawn 6 (.consume 2 (oneByte 1)),
      .answer 6 (.head (some ⟨1, "etag", some (Sample.services.sha256 [1])⟩))] ++ runs 6 5 ++
        [.answer 6 (.deleted true)]

theorem none_stranded_fails :
    ∃ w, World.Leads (pipeline Sample.services) (start 0) w ∧ ¬ NoneStranded w.shared := by
  have hRun : ((World.run (pipeline Sample.services) (start 0) Sample.strandingRun).map fun w =>
      (w.shared.db.files.rows.map (fun f => (f.id, f.status, f.attempt)),
        w.shared.db.files.rows.all (w.shared.now < ·.expiresAt),
        w.shared.db.outbox.rows.isEmpty, w.shared.ext.requests.all (·.deleted),
        w.shared.ext.events.all fun m => m.deleted || !m.body.isResult)) =
      some ([(Sample.fileId, .processing, 2)], true, true, true, true) := by decide
  obtain ⟨w, hW, h⟩ := Option.map_eq_some_iff.mp hRun
  simp only [Prod.mk.injEq, List.all_eq_true, List.isEmpty_iff, decide_eq_true_eq] at h
  obtain ⟨hFiles, hFuture, hRows, hDeleted, hEvents⟩ := h
  refine ⟨w, World.leads_of_run hW, fun hNone => ?_⟩
  obtain ⟨f, hf, hEq⟩ := List.mem_map.mp (hFiles ▸ List.mem_cons_self)
  simp only [Prod.mk.injEq] at hEq
  rcases hNone f hf (.inr hEq.2.1) (hFuture f hf) with ⟨row, hRow, _⟩ | ⟨m, hm, _, hThere⟩ |
    ⟨m, hm, hThere, hResult, _⟩
  · rw [hRows] at hRow
    cases hRow
  · cases (hDeleted m hm).symm.trans hThere
  · have hGone := hEvents m hm
    rw [hThere, hResult] at hGone
    cases hGone

end Pixaeron.Conversion
