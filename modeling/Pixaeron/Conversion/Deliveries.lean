import Pixaeron.Conversion.Runs

/-! # Requests and their deliveries

Every request comes from an admission that committed, and no admitted file goes without one. As
long as no drain loses a message it has sent, a file has one request only, and then no two
deliveries of a file have the same attempt.
-/

namespace Pixaeron.Conversion

open Transactions

/-- The entry is no drain transaction that was given up after a successful send. -/
def KeepsSent (e : LogEntry) : Prop :=
  ∀ rounds, e.call = .drain rounds → e.error ≠ none → .ok ∉ e.answers

/-- Drains do not lose what they have sent. -/
def Policy.keepsSent : Policy := ⟨fun _ => none, true, false⟩

variable {services : Services} {now : Nat} {w : World conversion Call Outcome}

theorem Policy.keepsSent_assumes {e : LogEntry} (h : KeepsSent e) : Policy.keepsSent.Assumes e :=
  ⟨fun _ _ hCap => (by cases hCap), fun _ => h⟩

theorem traffic_of_clean (h : World.Leads (system services) (start now) w)
    (hClean : ∀ e ∈ w.shared.history, KeepsSent e) :
    Traffic .keepsSent w.shared :=
  (sound_of_run (verified_system rfl) h fun e he => Policy.keepsSent_assumes (hClean e he)).2

theorem outbox_transactional (h : World.Leads (system services) (start now) w) :
    (∀ m ∈ w.shared.ext.requests, ∃ e ∈ w.shared.history, Admits e m.body) ∧
    (∀ e ∈ w.shared.history, ∀ id, Moved e id →
      (∃ row ∈ w.shared.db.outbox.rows, row.payload.fileId = id) ∨ 0 < w.shared.ext.sent id) ∧
    ((∀ e ∈ w.shared.history, KeepsSent e) → w.shared.ext.phantomSends = 0 →
      ∀ e ∈ w.shared.history, ∀ id, Moved e id → w.shared.ext.sent id ≤ 1 ∧
        ((∀ row ∈ w.shared.db.outbox.rows, row.payload.fileId ≠ id) →
          w.shared.ext.sent id = 1)) := by
  have hTraffic := (system_sound h).2
  refine ⟨hTraffic.requests, hTraffic.kept, fun hClean hDelivered e he id hMoved => ?_⟩
  have hOnce := (traffic_of_clean h hClean).once rfl hDelivered id
  refine ⟨hOnce, fun hGone => ?_⟩
  rcases hTraffic.kept e he id hMoved with ⟨row, hRow, hId⟩ | hSent
  · exact absurd hId (hGone row hRow)
  · omega

/-! ## Attempts -/

/-- No two deliveries of a file have the same attempt, and none overwrites what another stored. -/
def DeliveriesApart (outside : Outside) : Prop :=
  (outside.deliveries.map fun d => (d.fileId, d.attempt)).Nodup ∧
    ∀ put ∈ outside.puts, ∀ put' ∈ outside.puts, put.key = put'.key → put.delivery = put'.delivery

theorem sent_of_two {x : Outside} {i j : Nat} {m m' : Request} (hi : x.requests[i]? = some m)
    (hj : x.requests[j]? = some m') (hSame : m.body.fileId = m'.body.fileId)
    (hOnce : x.sent m.body.fileId ≤ 1) :
    i = j := by
  by_contra hApart
  wlog hLess : i < j generalizing i j m m'
  · exact this hj hi hSame.symm (hSame ▸ hOnce) (Ne.symm hApart) (by omega)
  obtain ⟨hLen, hAt⟩ := List.getElem?_eq_some_iff.mp hi
  obtain ⟨hLen', hAt'⟩ := List.getElem?_eq_some_iff.mp hj
  have hFirst : 0 < (x.requests.take j).countP fun r => r.body.fileId = m.body.fileId := by
    refine List.countP_pos_iff.mpr ⟨m, List.mem_take_iff_getElem.mpr ⟨i, by omega, hAt⟩, by simp⟩
  have hSecond : 0 < (x.requests.drop j).countP fun r => r.body.fileId = m.body.fileId := by
    refine List.countP_pos_iff.mpr ⟨m', ?_, by simp [hSame]⟩
    exact List.mem_drop_iff_getElem.mpr ⟨0, by omega, by simpa using hAt'⟩
  have hBoth : x.sent m.body.fileId =
    (x.requests.take j).countP (fun r => r.body.fileId = m.body.fileId) +
      (x.requests.drop j).countP fun r => r.body.fileId = m.body.fileId := by
    rw [Outside.sent, ← List.countP_append, List.take_append_drop]
  omega

section

variable {p : Policy} {s : Shared conversion Call} (hTraffic : Traffic p s) (hOnce : ∀ id,
  s.ext.sent id ≤ 1)

include hTraffic hOnce

theorem Traffic.delivery_unique {d d' : Delivery} (hd : d ∈ s.ext.deliveries)
    (hd' : d' ∈ s.ext.deliveries) (hFile : d.fileId = d'.fileId) : d.message = d'.message := by
  obtain ⟨m, hAt, hId, _⟩ := hTraffic.delivered d hd
  obtain ⟨m', hAt', hId', _⟩ := hTraffic.delivered d' hd'
  exact sent_of_two hAt hAt' (by rw [hId, hId', hFile]) (hOnce _)

theorem Traffic.deliveries_apart : (s.ext.deliveries.map fun d => (d.fileId, d.attempt)).Nodup := by
  have hSeparate := hTraffic.separate
  rw [List.Nodup, List.pairwise_map] at hSeparate ⊢
  refine hSeparate.imp_of_mem fun hd hd' hApart hSame => hApart ?_
  obtain ⟨hFile, hAttempt⟩ := Prod.mk.inj hSame
  exact Prod.ext (hTraffic.delivery_unique hOnce hd hd' hFile) hAttempt

theorem Traffic.delivery_ext {d d' : Delivery} (hd : d ∈ s.ext.deliveries)
    (hd' : d' ∈ s.ext.deliveries) (hFile : d.fileId = d'.fileId)
    (hAttempt : d.attempt = d'.attempt) : d = d' :=
  List.inj_on_of_nodup_map (hTraffic.deliveries_apart hOnce) hd hd' (Prod.ext hFile hAttempt)

theorem Traffic.puts_apart :
    ∀ put ∈ s.ext.puts, ∀ put' ∈ s.ext.puts, put.key = put'.key → put.delivery = put'.delivery := by
  intro put hPut put' hPut' hKey
  obtain ⟨hd, hAt⟩ := hTraffic.stored put hPut
  obtain ⟨hd', hAt'⟩ := hTraffic.stored put' hPut'
  rcases hAt with hOutput | hPreview <;> rcases hAt' with hOutput' | hPreview'
  · obtain ⟨_, hFile, hAttempt⟩ :=
      outputObjectKey_injective (hOutput.symm.trans (hKey.trans hOutput'))
    exact hTraffic.delivery_ext hOnce hd hd' hFile hAttempt
  · exact absurd (hOutput.symm.trans (hKey.trans hPreview')) outputObjectKey_ne_previewObjectKey
  · exact absurd (hOutput'.symm.trans (hKey.symm.trans hPreview))
      outputObjectKey_ne_previewObjectKey
  · obtain ⟨_, hFile, hAttempt⟩ :=
      previewObjectKey_injective (hPreview.symm.trans (hKey.trans hPreview'))
    exact hTraffic.delivery_ext hOnce hd hd' hFile hAttempt

end

theorem deliveries_apart_of_clean (h : World.Leads (system services) (start now) w)
    (hClean : ∀ e ∈ w.shared.history, KeepsSent e) (hDelivered : w.shared.ext.phantomSends = 0) :
    DeliveriesApart w.shared.ext := by
  have hTraffic := traffic_of_clean h hClean
  have hOnce : ∀ id, w.shared.ext.sent id ≤ 1 := hTraffic.once rfl hDelivered
  exact ⟨hTraffic.deliveries_apart hOnce, hTraffic.puts_apart hOnce⟩

namespace Sample

/-- The request of alice's file. -/
def request : ConversionRequestMessage :=
  ⟨fileId, batchId, "inputs/b/f", "etag", .standard, .lossy, .medium⟩

def sending (sid : Nat) : List (Action conversion Call) :=
  [.spawn sid (.drain 1)] ++ runs sid 4 ++ [.answer sid .ok]

/-- A worker up to the moment when it has stored its output, of one byte. -/
def converting (sid message : Nat) : List (Action conversion Call) :=
  [.spawn sid (.deliver message request), .answer sid .ok, .answer sid (.input []),
    .answer sid (.compressed (.ok .saved [1] .jpeg "image/jpeg" 1 4 4)), .answer sid .ok]

/-- The worker goes on without a preview, reports its result and deletes the request. -/
def reporting (sid : Nat) : List (Action conversion Call) :=
  [.answer sid (.threw false), .answer sid .ok, .answer sid (.deleted true)]

def oneByte (attempt : Nat) : WorkerEvent :=
  ⟨fileId, batchId, attempt, .result (.completed ⟨.saved, "jpeg", 1,
    outputObjectKey batchId fileId attempt, 1,
    Sample.services.sha256 [1], "jpeg", 4, 4, none⟩)⟩

/-- A send fails and its row is kept back for a while; the next drain sends it and commits. -/
def drainedRun : List (Action conversion Call) :=
  admission ++ [.spawn 2 (.drain 1)] ++ runs 2 4 ++ [.answer 2 (.threw false)] ++ runs 2 2 ++
    [.tick 5000] ++ sending 3 ++ runs 3 2

def deliveredRun : List (Action conversion Call) :=
  admission ++ sending 2 ++ runs 2 2 ++ converting 3 0 ++ reporting 3

/-- A drain is given up after its send, so a second one sends the request again. Both requests
are converted, the second one when the file is already COMPLETED. -/
def overwritingRun : List (Action conversion Call) :=
  admission ++ sending 2 ++ [.rollback 2] ++ sending 3 ++ runs 3 2 ++ converting 4 0 ++
    reporting 4 ++
    [.spawn 5 (.consume 1 (oneByte 1)),
      .answer 5 (.head (some ⟨1, "etag", some (Sample.services.sha256 [1])⟩))] ++ runs 5 7 ++
    converting 6 1

end Sample

theorem outbox_transactional_drained : ∃ w, World.Leads (system Sample.services) (start 0) w ∧
    w.shared.ext.requests.map Request.body = [Sample.request] ∧
    w.shared.db.outbox.rows.map OutboxEvent.id = [] ∧
    (∃ e ∈ w.shared.history, Admits e Sample.request) ∧ w.shared.ext.sent Sample.fileId = 1 := by
  have hRun : ((World.run (system Sample.services) (start 0) Sample.drainedRun).map fun w =>
      (w.shared.ext.requests.map Request.body, w.shared.db.outbox.rows.map OutboxEvent.id,
        w.shared.ext.phantomSends,
        w.shared.history.all fun e => e.error.isNone)) = some ([Sample.request], [], 0, true) := by
          decide
  obtain ⟨w, hW, h⟩ := Option.map_eq_some_iff.mp hRun
  simp only [Prod.mk.injEq, List.all_eq_true, Option.isNone_iff_eq_none] at h
  obtain ⟨hRequests, hRows, hDelivered, hDone⟩ := h
  have hLeads := World.leads_of_run hW
  obtain ⟨hAdmitted, _, hOnce⟩ := outbox_transactional hLeads
  obtain ⟨m, hm, hBody⟩ := List.mem_map.mp (hRequests ▸ List.mem_singleton_self Sample.request)
  obtain ⟨e, he, hAdmits⟩ := hAdmitted m hm
  rw [hBody] at hAdmits
  refine ⟨w, hLeads, hRequests, hRows, ⟨e, he, hAdmits⟩, ?_⟩
  refine (hOnce (fun e he _ _ hError => absurd (hDone e he) hError) hDelivered e he Sample.fileId
    hAdmits.2.1).2 ?_
  rw [List.map_eq_nil_iff.mp hRows]
  exact fun row hRow => by cases hRow

theorem deliveries_apart_of_clean_delivered :
    ∃ w, World.Leads (system Sample.services) (start 0) w ∧
    w.shared.ext.deliveries = [⟨0, Sample.fileId, Sample.batchId, 1⟩] ∧
    DeliveriesApart w.shared.ext := by
  have hRun : ((World.run (system Sample.services) (start 0) Sample.deliveredRun).map fun w =>
      (w.shared.ext.deliveries, w.shared.ext.phantomSends,
        w.shared.history.all fun e => e.error.isNone)) =
      some ([⟨0, Sample.fileId, Sample.batchId, 1⟩], 0, true) := by decide
  obtain ⟨w, hW, h⟩ := Option.map_eq_some_iff.mp hRun
  simp only [Prod.mk.injEq, List.all_eq_true, Option.isNone_iff_eq_none] at h
  obtain ⟨hDeliveries, hDelivered, hDone⟩ := h
  exact ⟨w, World.leads_of_run hW, hDeliveries,
    deliveries_apart_of_clean (World.leads_of_run hW)
      (fun e he _ _ hError => absurd (hDone e he) hError) hDelivered⟩

theorem deliveries_apart_fails : ∃ w, World.Leads (system Sample.services) (start 0) w ∧
    w.shared.db.files.rows.map (fun f => (f.status, f.outputObjectKey)) =
      [(.completed, some (outputObjectKey Sample.batchId Sample.fileId 1))] ∧
    w.shared.ext.puts = [⟨outputObjectKey Sample.batchId Sample.fileId 1,
      ⟨0, Sample.fileId, Sample.batchId, 1⟩⟩,
      ⟨outputObjectKey Sample.batchId Sample.fileId 1, ⟨1, Sample.fileId, Sample.batchId, 1⟩⟩] ∧
    ¬ DeliveriesApart w.shared.ext := by
  have hRun : ((World.run (system Sample.services) (start 0) Sample.overwritingRun).map fun w =>
      (w.shared.db.files.rows.map (fun f => (f.status, f.outputObjectKey)), w.shared.ext.puts)) =
      some ([(.completed, some (outputObjectKey Sample.batchId Sample.fileId 1))],
        [⟨outputObjectKey Sample.batchId Sample.fileId 1, ⟨0, Sample.fileId, Sample.batchId, 1⟩⟩,
          ⟨outputObjectKey Sample.batchId Sample.fileId 1,
            ⟨1, Sample.fileId, Sample.batchId, 1⟩⟩]) := by decide
  obtain ⟨w, hW, h⟩ := Option.map_eq_some_iff.mp hRun
  obtain ⟨hFiles, hPuts⟩ := Prod.mk.inj h
  refine ⟨w, World.leads_of_run hW, hFiles, hPuts, fun hApart => ?_⟩
  rw [DeliveriesApart, hPuts] at hApart
  exact absurd (hApart.2 _ List.mem_cons_self _ (List.mem_cons_of_mem _ List.mem_cons_self) rfl)
    (by decide)

end Pixaeron.Conversion
