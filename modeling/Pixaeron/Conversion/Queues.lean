import Pixaeron.Conversion.Traffic

/-! # What the calls do to the queues

Queues and stores only grow, and each answer that a call can get keeps the traffic in order.
-/

namespace Pixaeron.Conversion

open Transactions

def Outside.bodies (x : Outside) : List ConversionRequestMessage := x.requests.map Request.body

def Outside.eventBodies (x : Outside) : List WorkerEvent := x.events.map EventMessage.body

structure Grows (x y : Outside) : Prop where
  requests : x.bodies <+: y.bodies
  events : x.eventBodies <+: y.eventBodies
  deliveries : x.deliveries ⊆ y.deliveries
  phantomSends : x.phantomSends ≤ y.phantomSends

variable {p : Policy} {x y z : Outside}

theorem Grows.refl (x : Outside) : Grows x x :=
  ⟨List.prefix_rfl, List.prefix_rfl, List.Subset.refl _, le_rfl⟩

theorem Grows.trans (h : Grows x y) (h' : Grows y z) : Grows x z where
  requests := h.requests.trans h'.requests
  events := h.events.trans h'.events
  deliveries := List.Subset.trans h.deliveries h'.deliveries
  phantomSends := h.phantomSends.trans h'.phantomSends

theorem Outside.sent_eq (x : Outside) (id : Uuid) :
    x.sent id = x.bodies.countP fun body => body.fileId = id := by
  rw [sent, bodies, List.countP_map]
  rfl

theorem Outside.sent_congr (h : y.bodies = x.bodies) (id : Uuid) : y.sent id = x.sent id := by
  rw [sent_eq, sent_eq, h]

theorem Grows.sent_le (h : Grows x y) (id : Uuid) : x.sent id ≤ y.sent id := by
  rw [Outside.sent_eq, Outside.sent_eq]
  exact h.requests.sublist.countP_le

theorem Grows.event (h : Grows x y) {i : Nat} {body : WorkerEvent}
    (hAt : x.eventBodies[i]? = some body) :
    y.eventBodies[i]? = some body := by
  obtain ⟨rest, hRest⟩ := h.events
  rw [← hRest, List.getElem?_append_left (List.getElem?_eq_some_iff.mp hAt).1, hAt]

theorem Grows.mem_event (h : Grows x y) {body : WorkerEvent}
    (hMem : body ∈ x.eventBodies) : body ∈ y.eventBodies :=
  h.events.subset hMem

theorem map_modify {α β : Type} {l : List α} {i : Nat} {f : α → α} {g : α → β}
    (h : ∀ a, g (f a) = g a) :
    (l.modify i f).map g = l.map g := by
  refine List.ext_getElem? fun j => ?_
  rw [List.getElem?_map, List.getElem?_map, List.getElem?_modify]
  cases l[j]? with
  | none => rfl
  | some a =>
    simp only [Option.map_some]
    split
    · exact congrArg some (h a)
    · rfl

theorem getElem?_modify_cases {α : Type} {l : List α} {i j : Nat} {f : α → α} {b : α}
    (h : (l.modify i f)[j]? = some b) :
    i ≠ j ∧ l[j]? = some b ∨ i = j ∧ ∃ a, l[j]? = some a ∧ b = f a := by
  rw [List.getElem?_modify] at h
  obtain ⟨a, ha, hEq⟩ := Option.map_eq_some_iff.mp h
  split at hEq
  · next hSame => exact .inr ⟨hSame, a, ha, hEq.symm⟩
  · next hOther => exact .inl ⟨hOther, by rw [ha, ← hEq]⟩

variable {s : Shared conversion Call}

theorem Outgoing.same_bodies (h : Outgoing p s) (hBodies : y.bodies = s.ext.bodies)
    (hPhantom : y.phantomSends = s.ext.phantomSends) : Outgoing p (s.setExt y) where
  rows := h.rows
  requests m hm := by
    have hMem : m.body ∈ s.ext.bodies := hBodies ▸ List.mem_map_of_mem hm
    obtain ⟨m', hm', hSame⟩ := List.mem_map.mp hMem
    exact hSame ▸ h.requests m' hm'
  distinct := h.distinct
  kept e he id hMoved := by
    refine (h.kept e he id hMoved).imp (fun hRow => hRow) fun hSent => ?_
    rwa [Shared.setExt_ext, Outside.sent_congr hBodies]
  past := h.past
  once hClean hNone id := by
    rw [Shared.setExt_ext, Outside.sent_congr hBodies]
    exact h.once hClean (hPhantom ▸ hNone) id

/-! ## Receiving -/

theorem receive_bodies (d : Delivery) : (x.receive d).bodies = x.bodies :=
  map_modify fun _ => by rfl

theorem receive_grows (d : Delivery) : Grows x (x.receive d) where
  requests := receive_bodies d ▸ List.prefix_rfl
  events := List.prefix_rfl
  deliveries := List.subset_append_left _ _
  phantomSends := le_rfl

/-- A request that is still in its queue is received once more. -/
theorem Traffic.receive (h : Traffic p s) {i : Nat} {m : Request}
    (hRequest : s.ext.requests[i]? = some m) (hThere : m.deleted = false) :
    Traffic p (s.setExt (s.ext.receive ⟨i, m.body.fileId, m.body.batchId, m.receives + 1⟩)) where
  toOutgoing := h.toOutgoing.same_bodies (receive_bodies _) rfl
  delivered d hd := by
    have hAt : ∀ j m', s.ext.requests[j]? = some m' → ∃ m'', (s.ext.requests.modify i
        fun m => { m with receives := m.receives + 1 })[j]? = some m'' ∧ m''.body = m'.body ∧
          m'.receives ≤ m''.receives ∧
          (i = j → m''.receives = m'.receives + 1) := by
      intro j m' hm'
      rw [List.getElem?_modify, hm']
      refine ⟨_, rfl, ?_⟩
      split
      · exact ⟨rfl, Nat.le_succ _, fun _ => rfl⟩
      · next hOther => exact ⟨rfl, le_rfl, fun hSame => absurd hSame hOther⟩
    rcases List.mem_append.mp hd with hOld | hNew
    · obtain ⟨m', hm', hFile, hBatch, hAttempt⟩ := h.delivered d hOld
      obtain ⟨m'', hm'', hBody, hMore, _⟩ := hAt d.message m' hm'
      exact ⟨m'', hm'', by rw [hBody, hFile], by rw [hBody, hBatch], hAttempt.trans hMore⟩
    · rw [List.mem_singleton.mp hNew]
      obtain ⟨m'', hm'', hBody, _, hReceives⟩ := hAt i m hRequest
      exact ⟨m'', hm'', by rw [hBody], by rw [hBody], (hReceives rfl).ge⟩
  separate := by
    change ((s.ext.deliveries ++ [_]).map _).Nodup
    rw [List.map_append, List.nodup_append]
    refine ⟨h.separate, List.nodup_singleton _, ?_⟩
    rintro _ hOld _ hNew rfl
    obtain ⟨d, hd, hEq⟩ := List.mem_map.mp hOld
    rw [List.map_singleton, List.mem_singleton, ← hEq, Prod.mk.injEq] at hNew
    obtain ⟨m', hm', _, _, hAttempt⟩ := h.delivered d hd
    rw [hNew.1, hRequest, Option.some.injEq] at hm'
    rw [← hm', hNew.2] at hAttempt
    exact absurd hAttempt (Nat.not_succ_le_self _)
  reported m hm := by
    obtain ⟨d, hd, hReports⟩ := h.reported m hm
    exact ⟨d, List.mem_append_left _ hd, hReports⟩
  stored put hPut := ⟨List.mem_append_left _ (h.stored put hPut).1, (h.stored put hPut).2⟩
  stale d hd := List.mem_append_left _ (h.stale d hd)
  attempted hClosed f hf := by
    refine (h.attempted hClosed f hf).imp (fun hNone => hNone) ?_
    rintro ⟨d, hd, hDelivery⟩
    exact ⟨d, List.mem_append_left _ hd, hDelivery⟩
  answered j m' hm' hDeleted := by
    rcases getElem?_modify_cases hm' with ⟨_, hSame⟩ | ⟨rfl, m₀, hm₀, rfl⟩
    · obtain ⟨d, hd, hAnswer⟩ := h.answered j m' hSame hDeleted
      exact ⟨d, List.mem_append_left _ hd, hAnswer⟩
    · cases hRequest.symm.trans hm₀
      cases hThere.symm.trans hDeleted
  settled := h.settled

/-! ## Sending a request -/

section Sends

variable {queue : String} {body : ConversionRequestMessage} {reply : Reply}

theorem sends_cases (h : sends queue body reply x = some y) :
    y = x ∧ reply ≠ .ok ∨ y.bodies = x.bodies ++ [body] ∧
      (reply = .ok ∧ y.phantomSends = x.phantomSends ∨
        reply ≠ .ok ∧ y.phantomSends = x.phantomSends + 1) ∧
      y = { x with
        requests := x.requests ++ [⟨queue, body, 0, false⟩]
        phantomSends := y.phantomSends } := by
  unfold sends at h
  split at h
  · cases h
    exact .inr ⟨by simp [Outside.bodies], .inl ⟨rfl, rfl⟩, rfl⟩
  · cases h
    exact .inr ⟨by simp [Outside.bodies], .inr ⟨by simp, rfl⟩, rfl⟩
  · cases h
    exact .inl ⟨rfl, by simp⟩
  · cases h

theorem sends_grows (h : sends queue body reply x = some y) : Grows x y := by
  rcases sends_cases h with ⟨rfl, _⟩ | ⟨hBodies, hPhantom, hEq⟩
  · exact .refl _
  · refine ⟨hBodies ▸ List.prefix_append _ _, ?_, ?_, ?_⟩
    · rw [hEq]
      exact List.prefix_rfl
    · rw [hEq]
      exact List.Subset.refl _
    · rcases hPhantom with ⟨_, hSame⟩ | ⟨_, hMore⟩
      · exact hSame.ge
      · rw [hMore]
        exact Nat.le_succ _

theorem sent_of_sends (h : sends queue body reply x = some y) {id : Uuid}
    (hOther : id ≠ body.fileId) :
    y.sent id = x.sent id := by
  rcases sends_cases h with ⟨rfl, _⟩ | ⟨hBodies, _⟩
  · rfl
  · rw [Outside.sent_eq, Outside.sent_eq, hBodies, List.countP_append]
    simp [hOther.symm]

theorem sends_ok (h : sends queue body .ok x = some y) : 0 < y.sent body.fileId := by
  rcases sends_cases h with ⟨_, hNot⟩ | ⟨hBodies, _⟩
  · exact absurd rfl hNot
  · rw [Outside.sent_eq, hBodies, List.countP_append]
    simp

/-- A send that fails for its sender, and that the queue did not take either, sends nothing. -/
theorem sends_failed (h : sends queue body reply x = some y) (hNot : reply ≠ .ok)
    (hNone : y.phantomSends = 0) :
    y = x := by
  rcases sends_cases h with ⟨rfl, _⟩ | ⟨_, ⟨hOk, _⟩ | ⟨_, hMore⟩, _⟩
  · rfl
  · exact absurd hOk hNot
  · omega

theorem Traffic.sends (hTraffic : Traffic p s)
    (h : Conversion.sends queue body reply s.ext = some y)
    (hAdmits : ∃ e ∈ s.history, Admits e body)
    (hFirst : p.clean = true → s.ext.phantomSends = 0 → s.ext.sent body.fileId = 0) :
    Traffic p (s.setExt y) := by
  rcases sends_cases h with ⟨rfl, _⟩ | ⟨hBodies, hPhantom, hEq⟩
  · exact hTraffic
  have hRequests : y.requests = s.ext.requests ++ [⟨queue, body, 0, false⟩] := by rw [hEq]
  have hDeliveries : y.deliveries = s.ext.deliveries := by rw [hEq]
  have hEvents : y.events = s.ext.events := by rw [hEq]
  have hPuts : y.puts = s.ext.puts := by rw [hEq]
  have hStale : y.staleDeletes = s.ext.staleDeletes := by rw [hEq]
  have hGrows := sends_grows h
  exact {
    rows := hTraffic.rows
    requests := by
      intro m hm
      rw [Shared.setExt_ext, hRequests, List.mem_append, List.mem_singleton] at hm
      rcases hm with hOld | rfl
      · exact hTraffic.requests m hOld
      · exact hAdmits
    distinct := hTraffic.distinct
    kept := by
      intro e he id hMoved
      exact (hTraffic.kept e he id hMoved).imp_right fun hSent => hSent.trans_le (hGrows.sent_le id)
    past := hTraffic.past
    once := by
      intro hClean hNone id
      have hBefore : s.ext.phantomSends = 0 := Nat.le_zero.mp (hNone ▸ hGrows.phantomSends)
      by_cases hId : id = body.fileId
      · rw [Shared.setExt_ext, hId, Outside.sent_eq, hBodies, List.countP_append, ← Outside.sent_eq,
          hFirst hClean hBefore]
        simp
      · rw [Shared.setExt_ext, sent_of_sends h hId]
        exact hTraffic.once hClean hBefore id
    delivered := by
      intro d hd
      obtain ⟨m, hm, hRest⟩ := hTraffic.delivered d (hDeliveries ▸ hd)
      refine ⟨m, ?_, hRest⟩
      rw [Shared.setExt_ext, hRequests,
        List.getElem?_append_left (List.getElem?_eq_some_iff.mp hm).1, hm]
    separate := by
      rw [Shared.setExt_ext, hDeliveries]
      exact hTraffic.separate
    reported := by
      rw [Shared.setExt_ext, hDeliveries, hEvents]
      exact hTraffic.reported
    stored := by
      rw [Shared.setExt_ext, hDeliveries, hPuts]
      exact hTraffic.stored
    stale := by
      rw [Shared.setExt_ext, hDeliveries, hStale]
      exact hTraffic.stale
    attempted := by
      rw [Shared.setExt_ext, hDeliveries]
      exact hTraffic.attempted
    answered := by
      intro i m hm hDeleted
      rw [Shared.setExt_ext, hDeliveries, hEvents, hStale]
      rw [Shared.setExt_ext, hRequests, List.getElem?_append] at hm
      split at hm
      · exact hTraffic.answered i m hm hDeleted
      · rw [List.mem_singleton.mp (List.mem_of_getElem? hm)] at hDeleted
        cases hDeleted
    settled := by
      rw [Shared.setExt_ext, hEvents]
      exact hTraffic.settled }

end Sends

/-! ## Handling a delivery -/

section Publishes

variable {event : WorkerEvent} {reply : Reply}

theorem publishes_cases (h : publishes event reply x = some y) :
    y = { x with events := x.events ++ [⟨event, false⟩] } ∨ y = x ∧ reply = .threw false := by
  unfold publishes at h
  split at h <;> cases h
  · exact .inl rfl
  · exact .inl rfl
  · exact .inr ⟨rfl, rfl⟩

theorem publishes_grows (h : publishes event reply x = some y) : Grows x y := by
  rcases publishes_cases h with rfl | ⟨rfl, _⟩
  · refine ⟨List.prefix_rfl, ?_, List.Subset.refl _, le_rfl⟩
    rw [Outside.eventBodies, Outside.eventBodies, List.map_append]
    exact List.prefix_append _ _
  · exact .refl _

theorem publishes_bodies (h : publishes event reply x = some y) : y.bodies = x.bodies := by
  rcases publishes_cases h with rfl | ⟨rfl, _⟩ <;> rfl

theorem publishes_mem (h : publishes event reply x = some y)
    (hDone : ∀ applied, reply ≠ .threw applied) :
    event ∈ y.eventBodies := by
  rcases publishes_cases h with rfl | ⟨_, hThrew⟩
  · rw [Outside.eventBodies, List.map_append]
    exact List.mem_append_right _ List.mem_cons_self
  · exact absurd hThrew (hDone false)

theorem Traffic.publishes (hTraffic : Traffic p s)
    (h : Conversion.publishes event reply s.ext = some y)
    (hDelivery : ∃ d ∈ s.ext.deliveries, d.Reports event) : Traffic p (s.setExt y) := by
  rcases publishes_cases h with rfl | ⟨rfl, _⟩
  · exact {
      toOutgoing := hTraffic.toOutgoing.same_bodies rfl rfl
      delivered := hTraffic.delivered
      separate := hTraffic.separate
      reported := by
        intro m hm
        rcases List.mem_append.mp hm with hOld | hNew
        · exact hTraffic.reported m hOld
        · rw [List.mem_singleton.mp hNew]
          exact hDelivery
      stored := hTraffic.stored
      stale := hTraffic.stale
      attempted := hTraffic.attempted
      answered := by
        intro i m hm hDeleted
        obtain ⟨d, hd, hMessage, hLast, ev, hEvent, hResult⟩ := hTraffic.answered i m hm hDeleted
        exact ⟨d, hd, hMessage, hLast, ev, List.mem_append_left _ hEvent, hResult⟩
      settled := by
        intro m hm hDeleted
        rcases List.mem_append.mp hm with hOld | hNew
        · exact hTraffic.settled m hOld hDeleted
        · rw [List.mem_singleton.mp hNew] at hDeleted
          cases hDeleted }
  · exact hTraffic

end Publishes

section Puts

variable {key : String} {d : Delivery} {reply : Reply}

theorem puts_cases (h : puts key d reply x = some y) : y = { x with puts := x.puts ++ [⟨key, d⟩] } ∨
    y = x := by
  unfold puts at h
  split at h <;> cases h
  · exact .inl rfl
  · exact .inl rfl
  · exact .inr rfl

theorem puts_grows (h : puts key d reply x = some y) : Grows x y := by
  rcases puts_cases h with rfl | rfl
  · exact ⟨List.prefix_rfl, List.prefix_rfl, List.Subset.refl _, le_rfl⟩
  · exact .refl _

theorem puts_bodies (h : puts key d reply x = some y) : y.bodies = x.bodies := by
  rcases puts_cases h with rfl | rfl <;> rfl

theorem Traffic.puts (hTraffic : Traffic p s) (h : Conversion.puts key d reply s.ext = some y)
    (hDelivery : d ∈ s.ext.deliveries)
    (hKey : key = outputObjectKey d.batchId d.fileId d.attempt ∨
      key = previewObjectKey d.batchId d.fileId d.attempt) :
    Traffic p (s.setExt y) := by
  rcases puts_cases h with rfl | rfl
  · exact {
      toOutgoing := hTraffic.toOutgoing.same_bodies rfl rfl
      delivered := hTraffic.delivered
      separate := hTraffic.separate
      reported := hTraffic.reported
      stored := by
        intro put hPut
        rcases List.mem_append.mp hPut with hOld | hNew
        · exact hTraffic.stored put hOld
        · rw [List.mem_singleton.mp hNew]
          exact ⟨hDelivery, hKey⟩
      stale := hTraffic.stale
      attempted := hTraffic.attempted
      answered := hTraffic.answered
      settled := hTraffic.settled }
  · exact hTraffic

end Puts

section DeletesRequest

variable {d : Delivery} {reply : Reply}

theorem deletesRequest_cases (h : deletesRequest d reply x = some y) :
    y = x.deleteRequest d ∨ y = x := by
  unfold deletesRequest at h
  split at h <;> cases h
  · exact .inl rfl
  · exact .inr rfl
  · exact .inl rfl
  · exact .inr rfl

theorem deletesRequest_bodies (h : deletesRequest d reply x = some y) : y.bodies = x.bodies := by
  rcases deletesRequest_cases h with rfl | rfl
  · exact map_modify fun _ => by rfl
  · rfl

theorem deletesRequest_grows (h : deletesRequest d reply x = some y) : Grows x y := by
  have hBodies : x.bodies <+: y.bodies := deletesRequest_bodies h ▸ List.prefix_rfl
  rcases deletesRequest_cases h with rfl | rfl
  · exact ⟨hBodies, List.prefix_rfl, List.Subset.refl _, le_rfl⟩
  · exact .refl _

theorem Traffic.deletesRequest (hTraffic : Traffic p s)
    (h : Conversion.deletesRequest d reply s.ext = some y) (hDelivery : d ∈ s.ext.deliveries)
    (hResult : ∃ ev ∈ s.ext.events, ev.body.isResult = true ∧ d.Reports ev.body) :
    Traffic p (s.setExt y) := by
  have hBodies := deletesRequest_bodies h
  rcases deletesRequest_cases h with rfl | rfl
  · obtain ⟨m₀, hRequest, hFile, hBatch, hAttempt⟩ := hTraffic.delivered d hDelivery
    have hStale : s.ext.staleDeletes ⊆ (s.ext.deleteRequest d).staleDeletes := by
      unfold Outside.deleteRequest
      dsimp only
      split
      · exact List.subset_append_left _ _
      · exact List.Subset.refl _
    exact {
      toOutgoing := hTraffic.toOutgoing.same_bodies hBodies rfl
      delivered := by
        intro d' hd'
        obtain ⟨m, hm, hRest⟩ := hTraffic.delivered d' hd'
        rw [Shared.setExt_ext, Outside.deleteRequest, List.getElem?_modify, hm]
        refine ⟨_, rfl, ?_⟩
        split <;> exact hRest
      separate := hTraffic.separate
      reported := hTraffic.reported
      stored := hTraffic.stored
      stale := by
        intro d' hd'
        rw [Shared.setExt_ext, Outside.deleteRequest] at hd'
        dsimp only at hd'
        split at hd'
        · rcases List.mem_append.mp hd' with hOld | hNew
          · exact hTraffic.stale d' hOld
          · exact List.mem_singleton.mp hNew ▸ hDelivery
        · exact hTraffic.stale d' hd'
      attempted := hTraffic.attempted
      answered := by
        intro i m hm hDeleted
        -- a request that was deleted before keeps its answer
        have hBefore : ∀ m', s.ext.requests[i]? = some m' → m'.deleted = true →
          m'.receives = m.receives →
            ∃ d' ∈ (s.setExt (s.ext.deleteRequest d)).ext.deliveries, d'.message = i ∧
            (d'.attempt = m.receives ∨ d' ∈ (s.setExt (s.ext.deleteRequest d)).ext.staleDeletes) ∧
            ∃ ev ∈ (s.setExt (s.ext.deleteRequest d)).ext.events, ev.body.isResult = true ∧
              d'.Reports ev.body := by
          intro m' hm' hDeleted' hSame
          obtain ⟨d', hd', hMessage, hLast, hAnswer⟩ := hTraffic.answered i m' hm' hDeleted'
          exact ⟨d', hd', hMessage, hLast.imp (fun h => h.trans hSame) fun h => hStale h, hAnswer⟩
        rcases getElem?_modify_cases hm with ⟨_, hSame⟩ | ⟨rfl, m', hm', rfl⟩
        · exact hBefore m hSame hDeleted rfl
        · cases hRequest.symm.trans hm'
          by_cases hGone : m₀.deleted = true
          · exact hBefore m₀ hRequest hGone rfl
          · refine ⟨d, hDelivery, rfl, ?_, hResult⟩
            rcases hAttempt.eq_or_lt with hLast | hLater
            · exact .inl hLast
            · refine .inr ?_
              rw [Shared.setExt_ext, Outside.deleteRequest, hRequest]
              simp only [Option.any_some, Bool.not_eq_true] at hGone ⊢
              rw [if_pos (by simp [hGone, hLater])]
              exact List.mem_append_right _ List.mem_cons_self
      settled := hTraffic.settled }
  · exact hTraffic

end DeletesRequest

/-! ## Consuming an event -/

section DeletesEvent

variable {message : Nat} {reply : Reply}

theorem deletesEvent_cases (h : deletesEvent message reply x = some y) :
    y = { x with events := x.events.modify message fun m => { m with deleted := true } } ∨
      y = x := by
  unfold deletesEvent at h
  dsimp only at h
  split at h <;> cases h
  · exact .inl rfl
  · exact .inr rfl
  · exact .inl rfl
  · exact .inr rfl

theorem deletesEvent_bodies (h : deletesEvent message reply x = some y) : y.bodies = x.bodies := by
  rcases deletesEvent_cases h with rfl | rfl <;> rfl

theorem deletesEvent_grows (h : deletesEvent message reply x = some y) : Grows x y := by
  rcases deletesEvent_cases h with rfl | rfl
  · refine ⟨List.prefix_rfl, ?_, List.Subset.refl _, le_rfl⟩
    have hSame : (x.events.modify message fun m => { m with deleted := true }).map
      EventMessage.body = x.eventBodies :=
      map_modify fun _ => rfl
    exact hSame ▸ List.prefix_rfl
  · exact .refl _

theorem Traffic.deletesEvent (hTraffic : Traffic p s)
    (h : Conversion.deletesEvent message reply s.ext = some y) {event : WorkerEvent}
    (hBody : s.ext.eventBodies[message]? = some event)
    (hOutdated : event.isResult = true → s.db.Outdated event) : Traffic p (s.setExt y) := by
  rcases deletesEvent_cases h with rfl | rfl
  · have hMember : ∀ m ∈ s.ext.events.modify message fun m => { m with deleted := true },
        ∃ m' ∈ s.ext.events, m'.body = m.body ∧
          (m.deleted = true → m'.deleted = true ∨ m.body = event) := by
      intro m hm
      obtain ⟨i, hi⟩ := List.mem_iff_getElem?.mp hm
      rcases getElem?_modify_cases hi with ⟨_, hSame⟩ | ⟨rfl, m', hm', rfl⟩
      · exact ⟨m, List.mem_of_getElem? hSame, rfl, .inl⟩
      · refine ⟨m', List.mem_of_getElem? hm', rfl, fun _ => .inr ?_⟩
        rw [Outside.eventBodies, List.getElem?_map, hm'] at hBody
        exact Option.some.inj hBody
    exact {
      toOutgoing := hTraffic.toOutgoing.same_bodies rfl rfl
      delivered := hTraffic.delivered
      separate := hTraffic.separate
      reported := by
        intro m hm
        obtain ⟨m', hm', hSame, _⟩ := hMember m hm
        exact hSame ▸ hTraffic.reported m' hm'
      stored := hTraffic.stored
      stale := hTraffic.stale
      attempted := hTraffic.attempted
      answered := by
        intro i m hm hDeleted
        obtain ⟨d, hd, hMessage, hLast, ev, hEvent, hResult⟩ := hTraffic.answered i m hm hDeleted
        obtain ⟨j, hj⟩ := List.mem_iff_getElem?.mp hEvent
        refine ⟨d, hd, hMessage, hLast, if message = j then { ev with deleted := true } else ev, ?_,
          ?_⟩
        · refine List.mem_iff_getElem?.mpr ⟨j, ?_⟩
          rw [Shared.setExt_ext, List.getElem?_modify, hj]
          rfl
        · split <;> exact hResult
      settled := by
        intro m hm hDeleted hResult
        obtain ⟨m', hm', hSame, hCases⟩ := hMember m hm
        rcases hCases hDeleted with hOld | hNew
        · exact hSame ▸ hTraffic.settled m' hm' hOld (hSame ▸ hResult)
        · exact hNew ▸ hOutdated (hNew ▸ hResult) }
  · exact hTraffic

end DeletesEvent

end Pixaeron.Conversion
