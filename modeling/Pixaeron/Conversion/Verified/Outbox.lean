import Pixaeron.Conversion.Verified.Intake
import Pixaeron.Conversion.Verified.Rollup

/-! # Verified: the outbox publisher

While a drain holds its rows, nobody else sends their requests; what it has not sent itself is
still unsent when it lets go of them.
-/

namespace Pixaeron.Conversion

open Transactions Transactions.Script

variable {services : Services} {p : Policy} {call : Call} {s : Shared conversion Call}
  {replies : List Reply}

structure Draining (p : Policy) (claimed : List OutboxEvent) (deliveredIds failedIds : List Nat)
    (l : Local conversion) (tx : LocalTx conversion) (s : Shared conversion Call) : Prop where
  opened : l.tx = some tx
  started : tx.startedAt ≤ s.now
  held : ∀ r, l.held r ↔ ∃ event ∈ claimed, r = .outbox event.id
  rows : ∀ event ∈ claimed, s.db.outbox.get event.id = some event
  known : ∀ id, id ∈ deliveredIds ∨ id ∈ failedIds → ∃ event ∈ claimed, event.id = id
  sent : ∀ event ∈ claimed, event.id ∈ deliveredIds → 0 < s.ext.sent event.payload.fileId
  unsent : p.clean = true → s.ext.phantomSends = 0 → ∀ event ∈ claimed, event.id ∉ deliveredIds →
    s.ext.sent event.payload.fileId = 0
  silent : .ok ∉ tx.answers → deliveredIds = []

section Draining

variable {claimed : List OutboxEvent} {deliveredIds failedIds : List Nat} {l : Local conversion}
  {tx : LocalTx conversion} (h : Draining p claimed deliveredIds failedIds l tx s)

include h

theorem Draining.row_held {event : OutboxEvent} (hMem : event ∈ claimed) :
    l.held (.outbox event.id) :=
  (h.held _).mpr ⟨event, hMem, rfl⟩

theorem Draining.later {s' : Shared conversion Call}
    (hRely : (discipline services p).Rely l.held s s') :
    Draining p claimed deliveredIds failedIds l tx s' := by
  have hSame : ∀ event ∈ claimed, s'.ext.sent event.payload.fileId =
    s.ext.sent event.payload.fileId :=
    fun event hMem => rely_sent hRely (h.row_held hMem) (h.rows event hMem)
  exact {
    opened := h.opened
    started := h.started.trans (rely_now hRely)
    held := h.held
    rows := fun event hMem => rely_outbox hRely (h.row_held hMem) (h.rows event hMem)
    known := h.known
    sent := fun event hMem hDelivered => hSame event hMem ▸ h.sent event hMem hDelivered
    unsent := fun hClean hNone event hMem hNot => (hSame event hMem).trans
      (h.unsent hClean (Nat.le_zero.mp (hNone ▸ (rely_grows hRely).phantomSends)) event hMem hNot)
    silent := h.silent }

theorem Draining.undoable (hCall : ∃ rounds, call = .drain rounds)
    (hSound : (ledger services p).Sound s) :
    Undoable (discipline services p) call l tx .rolledBack s := by
  intro hAssumes
  have hCommitting : Committing services p l.held s
      (s.entry call tx.startedAt tx.reads tx.answers l.replies (some .rolledBack) s.db) .nothing :=
    committing_nothing h.started fun hError => absurd rfl hError
  refine ⟨hCommitting.guarantee hSound hAssumes, fun r hr => ?_⟩
  obtain ⟨event, hMem, rfl⟩ := (h.held r).mp hr
  intro hClean hNone row hRow
  obtain ⟨rounds, rfl⟩ := hCall
  have hEmpty := h.silent (hAssumes.clean hClean rounds rfl (by simp [Shared.entry]))
  cases (h.rows event hMem).symm.trans hRow
  exact h.unsent hClean hNone event hMem (by rw [hEmpty]; exact List.not_mem_nil)

theorem Draining.safe (hCall : ∃ rounds, call = .drain rounds) :
    Safe (discipline services p) call l s := by
  intro s' hRely tx' hTx'
  cases h.opened.symm.trans hTx'
  exact (h.later hRely).undoable hCall hRely.inv

theorem Draining.sends {event : OutboxEvent} {reply : Reply} {y : Outside} (hMem : event ∈ claimed)
    (hSends : Conversion.sends event.queue event.payload reply s.ext = some y)
    (hDistinct : ∀ event' ∈ claimed, event'.payload.fileId = event.payload.fileId →
      event' = event) :
    Draining p claimed (if reply = .ok then deliveredIds ++ [event.id] else deliveredIds)
      (if reply = .ok then failedIds else failedIds ++ [event.id]) (l.answered reply)
      { tx with answers := tx.answers ++ [reply] } (s.setExt y) where
  opened := by simp [Local.answered, h.opened]
  started := h.started
  held := h.held
  rows := h.rows
  known id hId := by
    by_cases hOk : reply = .ok
    · simp only [hOk, if_true, List.mem_append, List.mem_singleton] at hId
      rcases hId with (hOld | rfl) | hFailed
      · exact h.known id (.inl hOld)
      · exact ⟨event, hMem, rfl⟩
      · exact h.known id (.inr hFailed)
    · simp only [hOk, if_false, List.mem_append, List.mem_singleton] at hId
      rcases hId with hOld | hFailed | rfl
      · exact h.known id (.inl hOld)
      · exact h.known id (.inr hFailed)
      · exact ⟨event, hMem, rfl⟩
  sent event' hMem' hDelivered := by
    have hMore := (sends_grows hSends).sent_le event'.payload.fileId
    by_cases hOk : reply = .ok
    · subst hOk
      simp only [if_true, List.mem_append, List.mem_singleton] at hDelivered
      rcases hDelivered with hOld | hId
      · exact (h.sent event' hMem' hOld).trans_le hMore
      · have hGet := h.rows event hMem
        rw [← hId, h.rows event' hMem', Option.some.injEq] at hGet
        exact hGet ▸ sends_ok hSends
    · rw [if_neg hOk] at hDelivered
      exact (h.sent event' hMem' hDelivered).trans_le hMore
  unsent hClean hNone event' hMem' hNot := by
    have hBefore : s.ext.phantomSends = 0 :=
      Nat.le_zero.mp (hNone ▸ (sends_grows hSends).phantomSends)
    by_cases hOk : reply = .ok
    · simp only [hOk, if_true, List.mem_append, List.mem_singleton, not_or] at hNot
      have hOther : event'.payload.fileId ≠ event.payload.fileId := fun hSame =>
        hNot.2 (congrArg OutboxEvent.id (hDistinct event' hMem' hSame))
      exact (sent_of_sends hSends hOther).trans (h.unsent hClean hBefore event' hMem' hNot.1)
    · rw [if_neg hOk] at hNot
      have hSame := sends_failed hSends hOk hNone
      rw [Shared.setExt_ext, hSame]
      exact h.unsent hClean hBefore event' hMem' hNot
  silent hNot := by
    simp only [List.mem_append, List.mem_singleton, not_or] at hNot
    rw [if_neg (Ne.symm hNot.2)]
    exact h.silent hNot.1

theorem Draining.ran (name : Statement) (locks : View conversion → List Resource)
    (write : View conversion → Database → Database) (v : View conversion)
    (hLocks : ∀ r ∈ locks v, ∃ event ∈ claimed, r = .outbox event.id) :
    Draining p claimed deliveredIds failedIds (l.ran tx name locks write v)
      { tx with pending := write v ∘ tx.pending, reads := tx.reads ++ [(name, v.db)] } s :=
  { h with
    opened := rfl
    held := fun r => ⟨fun hHeld => hHeld.elim (h.held r).mp (hLocks r),
      fun hMem => .inl ((h.held r).mpr hMem)⟩ }

end Draining

theorem Draining.distinct {claimed : List OutboxEvent} {deliveredIds failedIds : List Nat}
    {l : Local conversion} {tx : LocalTx conversion}
    (h : Draining p claimed deliveredIds failedIds l tx s) (hSound : (ledger services p).Sound s)
    {event : OutboxEvent} (hMem : event ∈ claimed) :
    ∀ event' ∈ claimed, event'.payload.fileId = event.payload.fileId → event' = event :=
  fun event' hMem' hSame => hSound.2.distinct event' (Table.mem_of_get (h.rows event' hMem')) event
    (Table.mem_of_get (h.rows event hMem)) hSame

theorem wp_publish {claimed rest : List OutboxEvent} {deliveredIds failedIds : List Nat}
    {deadline : Nat} {l : Local conversion} {tx : LocalTx conversion} {write : Database → Database}
    {Q : List Nat × List Nat → Local conversion → Shared conversion Call → Prop}
    (hCall : ∃ rounds, call = .drain rounds) (h : Draining p claimed deliveredIds failedIds l tx s)
    (hPending : tx.pending = write) (hRest : rest ⊆ claimed)
    (hNodup : (rest.map OutboxEvent.id).Nodup) (hFresh : ∀ event ∈ rest, event.id ∉ deliveredIds)
    (hDone : ∀ deliveredIds failedIds l tx s,
      Draining p claimed deliveredIds failedIds l tx s → tx.pending = write →
      Q (deliveredIds, failedIds) l s) :
    Wp (discipline services p) call (publish deadline rest deliveredIds failedIds) Q l s := by
  induction rest generalizing deliveredIds failedIds l tx s with
  | nil => exact Wp.done (h.safe hCall) fun s' hRely => hDone _ _ _ _ _ (h.later hRely) hPending
  | cons event rest ih =>
    have hMem : event ∈ claimed := hRest List.mem_cons_self
    unfold publish
    refine Wp.clock (h.safe hCall) fun s₁ hRely₁ => ?_
    have h₁ := h.later hRely₁
    rw [Script.bind_done]
    split
    · exact Wp.done (h₁.safe hCall) fun s' hRely => hDone _ _ _ _ _ (h₁.later hRely) hPending
    · refine Wp.answer (h₁.safe hCall) fun s₂ reply y hRely₂ hSends => ?_
      have h₂ := h₁.later hRely₂
      have hNext := h₂.sends hMem hSends (h₂.distinct hRely₂.inv hMem)
      refine ⟨guarantee_sends hRely₂.inv hSends (h₂.rows event hMem)
        (h₂.row_held hMem) fun hClean hNone =>
          h₂.unsent hClean hNone event hMem (hFresh event List.mem_cons_self), ?_⟩
      rw [List.map_cons, List.nodup_cons] at hNodup
      have hOthers : ∀ other ∈ rest, other.id ≠ event.id := fun other hOther hSame =>
        hNodup.1 (hSame ▸ List.mem_map_of_mem hOther)
      rw [Script.bind_done]
      split
      · rw [if_pos rfl, if_pos rfl] at hNext
        refine ih hNext hPending (fun _ hIn => hRest (List.mem_cons_of_mem _ hIn)) hNodup.2
          fun other hOther => ?_
        simp [hFresh other (List.mem_cons_of_mem _ hOther), hOthers other hOther]
      · next hNot =>
        rw [if_neg (fun hOk => hNot hOk), if_neg (fun hOk => hNot hOk)] at hNext
        exact ih hNext hPending (fun _ hIn => hRest (List.mem_cons_of_mem _ hIn)) hNodup.2
          fun other hOther => hFresh other (List.mem_cons_of_mem _ hOther)

/-! ## Claiming and settling -/

theorem mem_dueEvents {db : Database} {now : Nat} {busy : Resource → Bool} {event : OutboxEvent}
    (h : event ∈ db.dueEvents now busy) : event ∈ db.outbox.rows :=
  (Table.mem_select.mp (mem_orderBy.mp (List.mem_of_mem_take h))).1

theorem dueEvents_nodup {db : Database} {now : Nat} {busy : Resource → Bool} :
    ((db.dueEvents now busy).map OutboxEvent.id).Nodup := by
  have hSelected : ((db.outbox.select fun event =>
      event.status = .pending && event.nextAttemptAt ≤ now && !busy (.outbox event.id)).map
        OutboxEvent.id).Nodup :=
    db.outbox.nodup.sublist (List.filter_sublist.map _)
  refine List.Nodup.sublist ((List.take_sublist _ _).map _) ?_
  exact (orderBy_perm.map OutboxEvent.id).nodup_iff.mpr hSelected

theorem Database.deleteDelivered_nil {db : Database} : db.deleteDelivered [] = db := by
  unfold deleteDelivered
  simp

theorem Database.backOffFailed_nil {db : Database} {now : Nat} : db.backOffFailed [] now = db := by
  rw [backOffFailed, Table.modify_nil]

theorem wp_backOffFailed {n : Nat} {claimed : List OutboxEvent} {deliveredIds failedIds : List Nat}
    {l : Local conversion} {tx : LocalTx conversion}
    {Q : Nat → Local conversion → Shared conversion Call → Prop}
    (hCall : ∃ rounds, call = .drain rounds) (h : Draining p claimed deliveredIds failedIds l tx s)
    (hPending : ∀ db, tx.pending db = db.deleteDelivered deliveredIds)
    (hDone : ∀ l tx s now, Draining p claimed deliveredIds failedIds l tx s →
      (∀ db, tx.pending db = (db.deleteDelivered deliveredIds).backOffFailed failedIds now) →
      Q n l s) :
    Wp (discipline services p) call
      (if (!failedIds.isEmpty) = true then
        (change (V := conversion) .backOffFailed (fun _ => failedIds.map .outbox) (fun v db =>
          db.backOffFailed failedIds v.now)
          fun _ => ()).bind fun _ => .done n
      else .done n) Q l s := by
  split
  · refine Wp.statement h.opened (h.safe hCall) fun s₁ v hRely₁ _ _ _ => ?_
    rw [Script.bind_done]
    have h₁ := h.later hRely₁
    have hLocks : ∀ r ∈ failedIds.map Resource.outbox, ∃ event ∈ claimed, r = .outbox event.id := by
      intro r hr
      obtain ⟨id, hId, rfl⟩ := List.mem_map.mp hr
      obtain ⟨event, hMem, rfl⟩ := h.known id (.inr hId)
      exact ⟨event, hMem, rfl⟩
    have hRan :=
      h₁.ran .backOffFailed (fun _ => failedIds.map .outbox)
        (fun v db => db.backOffFailed failedIds v.now) v hLocks
    refine Wp.done (hRan.safe hCall) fun s₂ hRely₂ =>
      hDone _ _ _ v.now (hRan.later hRely₂) fun db => ?_
    exact congrArg (fun db => Database.backOffFailed db failedIds v.now) (hPending db)
  · next hEmpty =>
    have hNone : failedIds = [] := by simpa using hEmpty
    refine Wp.done (h.safe hCall) fun s₁ hRely₁ => hDone _ _ _ 0 (h.later hRely₁) fun db => ?_
    rw [hPending, hNone, Database.backOffFailed_nil]

theorem wp_publishClaimed {l : Local conversion} {tx : LocalTx conversion} {limit : Nat}
    {Q : Nat → Local conversion → Shared conversion Call → Prop}
    (hCall : ∃ rounds, call = .drain rounds) (hWithin : Within l tx s)
    (hOpened : Opened l tx replies s.now limit)
    (hDone : ∀ n claimed deliveredIds failedIds l tx s now,
      Draining p claimed deliveredIds failedIds l tx s →
      (∀ db, tx.pending db = (db.deleteDelivered deliveredIds).backOffFailed failedIds now) →
      Q n l s) :
    Wp (discipline services p) call publishClaimed Q l s := by
  unfold publishClaimed
  simp only [Script.bind_eq, Script.pure_eq]
  refine Wp.statement hWithin.opened hWithin.safe fun s₁ v hRely₁ _ hSees hFree => ?_
  rw [Script.bind_done]
  have hDb : v.db = s₁.db := by
    rw [hSees.db, hOpened.pending]
    rfl
  have h₁ : Draining p (v.db.dueEvents v.now v.busy) [] []
      (l.ran tx .claimEvents (fun v => (v.db.dueEvents v.now v.busy).map
        fun event => .outbox event.id) (fun _ => id) v)
      { tx with pending := id ∘ tx.pending, reads := tx.reads ++ [(.claimEvents, v.db)] } s₁ := by
    have hRows : ∀ event ∈ v.db.dueEvents v.now v.busy, s₁.db.outbox.get event.id = some event := by
      intro event hMem
      rw [← hDb]
      exact Table.get_of_mem (mem_dueEvents hMem)
    refine ⟨rfl, (hWithin.later hRely₁).started, fun r => ?_, hRows, ?_, ?_,
      fun hClean hNone event hMem _ => ?_, fun _ => rfl⟩
    · refine ⟨fun hHeld => ?_, ?_⟩
      · obtain ⟨event, hMem, rfl⟩ := List.mem_map.mp (hHeld.resolve_left (hOpened.held r))
        exact ⟨event, hMem, rfl⟩
      · rintro ⟨event, hMem, rfl⟩
        exact .inr (List.mem_map_of_mem hMem)
    · rintro id (hMem | hMem) <;> cases hMem
    · intro event _ hMem
      cases hMem
    · exact hFree _ (List.mem_map_of_mem hMem) (hOpened.held _) hClean hNone event
        (hRows event hMem)
  refine Wp.clock (h₁.safe hCall) fun s₂ hRely₂ => ?_
  rw [Script.bind_done]
  have hNothing : id ∘ tx.pending = id := by rw [hOpened.pending]; rfl
  refine Wp.bind hRely₂.inv (wp_publish hCall (h₁.later hRely₂) hNothing
    (List.Subset.refl _) dueEvents_nodup (fun _ _ hMem => by cases hMem)
      fun deliveredIds failedIds l₃ tx₃ s₃ h₃ hPending => ?_)
  dsimp only
  split
  · refine Wp.statement h₃.opened (h₃.safe hCall) fun s₄ v₄ hRely₄ _ _ _ => ?_
    rw [Script.bind_done]
    have h₄ := h₃.later hRely₄
    have hLocks : ∀ r ∈ deliveredIds.map Resource.outbox, ∃ event ∈ v.db.dueEvents v.now v.busy,
      r = .outbox event.id := by
      intro r hr
      obtain ⟨id, hId, rfl⟩ := List.mem_map.mp hr
      obtain ⟨event, hMem, rfl⟩ := h₃.known id (.inl hId)
      exact ⟨event, hMem, rfl⟩
    have hRan :=
      h₄.ran .deleteDelivered (fun _ => deliveredIds.map .outbox)
        (fun _ db => db.deleteDelivered deliveredIds) v₄ hLocks
    refine wp_backOffFailed hCall hRan (fun db => ?_) fun l tx s now h hSettled =>
      hDone _ _ _ _ _ _ _ now h hSettled
    rw [hPending]
    rfl
  · next hEmpty =>
    have hNone : deliveredIds = [] := by simpa using hEmpty
    refine wp_backOffFailed hCall h₃ (fun db => ?_) fun l tx s now h hSettled =>
      hDone _ _ _ _ _ _ _ now h hSettled
    rw [hPending, hNone, Database.deleteDelivered_nil]
    rfl

theorem Draining.committing (services : Services) {claimed : List OutboxEvent}
    {deliveredIds failedIds : List Nat} {l : Local conversion} {tx : LocalTx conversion} {now : Nat}
    (hCall : ∃ rounds, call = .drain rounds) (h : Draining p claimed deliveredIds failedIds l tx s)
    (hPending : ∀ db, tx.pending db =
      (db.deleteDelivered deliveredIds).backOffFailed failedIds now) :
    Committing services p l.held s (commitEntry call l tx s)
      (.publish deliveredIds failedIds now) where
  before := rfl
  endedAt := rfl
  started := h.started
  allowed := hCall
  apply := hPending s.db
  kept hError := absurd rfl hError
  checked _ := by
    obtain ⟨rounds, rfl⟩ := hCall
    exact storageChecked_of_call rfl
  backed id hDelivered row hRow := by
    obtain ⟨event, hMem, rfl⟩ := h.known id (.inl hDelivered)
    rw [← Option.some.inj ((h.rows event hMem).symm.trans hRow)]
    exact h.sent event hMem hDelivered
  held := by
    rintro r ⟨id, hId, rfl⟩
    obtain ⟨event, hMem, rfl⟩ := h.known id hId
    exact h.row_held hMem

theorem wp_drain {rounds : Nat} (hCall : ∃ rounds, call = .drain rounds)
    (hInv : (ledger services p).Sound s) :
    Wp (discipline services p) call (drain rounds) (fun _ l _ => AtRest l)
      (.outside replies) s := by
  induction rounds generalizing replies s with
  | zero => exact wp_at_rest fun _ _ => atRest_outside _
  | succ rounds ih =>
    unfold drain
    refine Wp.bind hInv ((wp_transaction (Q := fun _ l _ => AtRest l)
      (fun _ _ _ _ => wp_at_rest fun _ _ => atRest_outside _)
        fun s₁ l₁ tx₁ hRely₁ hWithin₁ hOpened => ?_).mono
        fun claimed l s' hSound hRest => ?_)
    · refine Wp.bind hRely₁.inv (wp_publishClaimed hCall hWithin₁ hOpened
        fun n claimed deliveredIds failedIds l tx s now h hPending => ?_)
      refine Wp.done (h.safe hCall) fun s₂ hRely₂ => ?_
      refine Wp.commit (h.later hRely₂).opened ((h.later hRely₂).safe hCall)
        fun s₃ hRely₃ _ hAssumes => ?_
      have h₃ := (h.later hRely₂).later hRely₃
      have hCommitting := h₃.committing services hCall hPending
      refine ⟨hCommitting.guarantee hRely₃.inv hAssumes, fun r hr => ?_,
        wp_at_rest fun _ _ => atRest_outside _⟩
      obtain ⟨event, hMem, rfl⟩ := (h₃.held r).mp hr
      intro hClean hNone row hRow
      change (tx.pending s₃.db).outbox.get event.id = some row at hRow
      rw [hPending, Database.get_backOffFailed, Database.get_deleteDelivered, h₃.rows event hMem,
        Option.map_eq_some_iff] at hRow
      obtain ⟨old, hOld, hEq⟩ := hRow
      obtain ⟨hSame, hKept⟩ := Option.filter_eq_some_iff.mp hOld
      cases hSame
      have hPayload : row.payload = event.payload := by
        rw [← hEq]
        split <;> rfl
      rw [hPayload]
      exact h₃.unsent hClean hNone event hMem (of_decide_eq_true hKept)
    · obtain ⟨replies', rfl⟩ := hRest
      split
      · exact ih hSound
      · exact wp_at_rest fun _ _ => atRest_outside _

end Pixaeron.Conversion
