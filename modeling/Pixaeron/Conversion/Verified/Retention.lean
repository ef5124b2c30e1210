import Pixaeron.Conversion.Verified.Intake
import Pixaeron.Conversion.Verified.Rollup

/-! # Verified: retention -/

namespace Pixaeron.Conversion

open Transactions Transactions.Script

variable {services : Services} {p : Policy} {call : Call} {s : Shared conversion Call}
  {replies : List Reply}

/-! ## The sweep -/

theorem overdue_iff {f : ConversionFile} {now : Nat} :
    f.overdue now = true ↔ f.status ∈ liveFileStatuses ∧ f.expiresAt ≤ now := by
  simp [ConversionFile.overdue]

theorem RolledUp.idle {batchId : Uuid} {seen found : Database} {b : ConversionBatch}
    {rolled : List Uuid} (h : RolledUp batchId seen found rolled)
    (hAgrees : Agrees b.status (seen.statuses batchId))
    (hFound : found.batches.get batchId = some b) : rolled = [] := by
  by_cases hAll : ∀ st ∈ seen.statuses batchId, st ∈ terminalFileStatuses
  · refine List.eq_nil_iff_forall_not_mem.mpr fun id hMem => ?_
    obtain ⟨rfl, b', hb', hFrom⟩ := (h.mem hAll id).mp hMem
    cases hFound.symm.trans hb'
    have hTerminal := hAgrees.terminal.mpr hAll
    unfold rolledFrom at hFrom
    split at hFrom
    · next hExpired =>
      have hStatus := hAgrees.expired.mpr (rolledStatus_expired.mp hExpired)
      rw [hStatus] at hFrom
      exact absurd hFrom (by decide)
    · revert hFrom hTerminal
      cases b.status <;> decide
  · push Not at hAll
    exact h.quiet hAll

/-- The statuses a sweep leaves, with the roll-up that follows it. `db` is what the roll-up has
read, `db'` what the transaction commits to. -/
theorem sweep_agrees {db db' found : Database} {b : ConversionBatch} {batchId : Uuid}
    {ids rolled : List Uuid}
    (hMatches : Matches Unnoticed
      ((db.changeFiles ids fun f => { f with status := .expired }).statuses batchId)
      ((db'.changeFiles ids fun f => { f with status := .expired }).statuses batchId))
    (hLive : ∀ id ∈ ids, ∀ f, db.files.get id = some f → f.status ∈ liveFileStatuses)
    (hUploading : b.status = .uploading → ∀ f ∈ db.files.rows, f.batchId = batchId → f.id ∈ ids)
    (hAgrees : Agrees b.status (db.statuses batchId)) (hNonempty : db.statuses batchId ≠ [])
    (hBatch : db'.batches.get batchId = some b) (hFound : found.batches.get batchId = some b)
    (hRolled : RolledUp batchId (db.changeFiles ids fun f => { f with status := .expired })
      found rolled) :
    ((db'.changeFiles ids fun f => { f with status := .expired }).setStatus rolled
      (rolledStatus ((db.changeFiles ids fun f => { f with status := .expired }).statuses
        batchId))).AgreesOn batchId := by
  have hSwept : Matches (fun st st' => st' = st ∨ st ∈ liveFileStatuses ∧ st' = .expired)
    (db.statuses batchId)
      ((db.changeFiles ids fun f => { f with status := .expired }).statuses batchId) := by
    have hStep : ∀ f ∈ db.files.rows,
      (if f.id ∈ ids then { f with status := .expired } else f).status = f.status ∨
        f.status ∈ liveFileStatuses ∧
          (if f.id ∈ ids then { f with status := .expired } else f).status = .expired := by
      intro f hf
      split
      · next hMem => exact .inr ⟨hLive f.id hMem f (Table.get_of_mem hf), rfl⟩
      · exact .inl rfl
    constructor
    · intro st hSt
      obtain ⟨f, hf, hId, rfl⟩ := mem_statuses.mp hSt
      exact ⟨_, (mem_statuses_changeFiles (by exact fun _ => rfl)).mpr ⟨f, hf, hId, rfl⟩,
        hStep f hf⟩
    · intro st' hSt'
      obtain ⟨f, hf, hId, rfl⟩ := (mem_statuses_changeFiles (by exact fun _ => rfl)).mp hSt'
      exact ⟨_, mem_statuses.mpr ⟨f, hf, hId, rfl⟩, hStep f hf⟩
  have hSome : (db.changeFiles ids fun f => { f with status := .expired }).statuses batchId ≠
    [] := by
    obtain ⟨st, hSt⟩ := List.exists_mem_of_ne_nil _ hNonempty
    obtain ⟨st', hSt', _⟩ := hSwept.1 st hSt
    exact List.ne_nil_of_mem hSt'
  intro b' hb'
  rw [Database.setStatus, Database.changeBatches_batches, Table.get_modify,
    Database.changeFiles_batches, hBatch, Option.map_some, Option.some.injEq] at hb'
  refine Agrees.matches ?_ hMatches
  by_cases hAll : ∀ st ∈ (db.changeFiles ids fun f => { f with status := .expired }).statuses
    batchId,
      st ∈ terminalFileStatuses
  · have hStatus : b'.status = afterRollUp b.status
        ((db.changeFiles ids fun f => { f with status := .expired }).statuses batchId) := by
      unfold afterRollUp
      rw [← hb']
      by_cases hFrom : b.status ∈ rolledFrom
          (rolledStatus ((db.changeFiles ids fun f => { f with status := .expired }).statuses
            batchId))
      · rw [if_pos ((hRolled.mem hAll _).mpr ⟨rfl, b, hFound, hFrom⟩), if_pos hFrom]
      · rw [if_neg hFrom, if_neg fun hMem => ?_]
        obtain ⟨_, b₀, hb₀, hFrom₀⟩ := (hRolled.mem hAll _).mp hMem
        cases hFound.symm.trans hb₀
        exact hFrom hFrom₀
    rw [hStatus]
    exact hAgrees.expiring hSwept hSome hAll
  · push Not at hAll
    rw [hRolled.quiet hAll, if_neg List.not_mem_nil] at hb'
    rw [← hb']
    obtain ⟨st, hSt, hOpen⟩ := hAll
    obtain ⟨f, hf, hId, hStatus⟩ := (mem_statuses_changeFiles (by exact fun _ => rfl)).mp hSt
    have hKept : f.id ∉ ids := by
      intro hMem
      rw [if_pos hMem] at hStatus
      exact hOpen (hStatus ▸ (by decide : .expired ∈ terminalFileStatuses))
    rw [if_neg hKept] at hStatus
    refine hAgrees.still_open ⟨st, mem_statuses.mpr ⟨f, hf, hId, hStatus⟩, hOpen⟩
      ⟨st, hSt, hOpen⟩ fun hEq => ?_
    exact absurd (hUploading hEq f hf hId) hKept

/-- A sweep that has locked the batch, if it is still there, and all of its files that are overdue.
-/
structure Sweeping (now : Nat) (batchId : Uuid) (ids : List Uuid) (held : Resource → Prop)
    (s : Shared conversion Call) : Prop where
  overdue : ∀ id, id ∈ ids ↔ ∃ f, s.db.files.get id = some f ∧ f.batchId = batchId ∧
    f.status ∈ liveFileStatuses ∧ f.expiresAt ≤ now
  files : ∀ id ∈ ids, held (.file id)
  batch : ∀ b, s.db.batches.get batchId = some b → held (.batch batchId)
  issued : batchId ∈ s.db.issued
  past : now ≤ s.now

section Sweeping

variable {now : Nat} {batchId : Uuid} {ids rolled : List Uuid} {held : Resource → Prop}
  {b : ConversionBatch}
  {s₃ s₄ s₇ : Shared conversion Call} (h : Sweeping now batchId ids held s)

include h

/-- Rows that the sweep has locked are as it has found them. -/
theorem Sweeping.kept (hRely : (discipline services p).Rely held s s') {id : Uuid}
    (hId : id ∈ ids) :
    ∃ f, s.db.files.get id = some f ∧ s'.db.files.get id = some f ∧ f.batchId = batchId ∧
      f.status ∈ liveFileStatuses ∧ f.expiresAt ≤ now := by
  obtain ⟨f, hGet, hRest⟩ := (h.overdue id).mp hId
  exact ⟨f, hGet, rely_file hRely (h.files id hId) hGet, hRest⟩

theorem Sweeping.found (hRely : (discipline services p).Rely held s s')
    (hExists : s'.db.batches.get batchId = some b) :
    held (.batch batchId) ∧ s.db.batches.get batchId = some b := by
  obtain ⟨b₀, hb₀⟩ := rely_existed hRely h.issued hExists
  have hHeld := h.batch b₀ hb₀
  cases hExists.symm.trans (rely_batch hRely hHeld hb₀)
  exact ⟨hHeld, hb₀⟩

theorem Sweeping.idle_of_purged (hRely₃ : (discipline services p).Rely held s s₃)
    (hRely₄ : (discipline services p).Rely held s₃ s₄) (hExists : s₃.db.batches.get batchId = none)
    (hRolled : RolledUp batchId (s₃.db.changeFiles ids fun f => { f with status := .expired })
      (s₄.db.changeFiles ids fun f => { f with status := .expired }) rolled) :
      ids = [] ∧ rolled = [] := by
  refine ⟨List.eq_nil_iff_forall_not_mem.mpr fun id hId => ?_,
    List.eq_nil_iff_forall_not_mem.mpr fun id hId => ?_⟩
  · obtain ⟨f, _, hGet₃, rfl, _⟩ := h.kept hRely₃ hId
    obtain ⟨b, hb⟩ := (rely_consistent hRely₃).owned f (Table.mem_of_get hGet₃)
    rw [hExists] at hb
    cases hb
  · by_cases hAll : ∀ st ∈ (s₃.db.changeFiles ids fun f => { f with status := .expired }).statuses
      batchId,
        st ∈ terminalFileStatuses
    · obtain ⟨rfl, b, hb, _⟩ := (hRolled.mem hAll id).mp hId
      obtain ⟨b₃, hb₃⟩ := rely_existed hRely₄ (rely_issued hRely₃ h.issued) hb
      cases hExists.symm.trans hb₃
    · push Not at hAll
      rw [hRolled.quiet hAll] at hId
      cases hId

/-- A batch that is still UPLOADING is swept with all of its files. -/
theorem Sweeping.all_of_uploading (hRely : (discipline services p).Rely held s s₃)
    (hExists : s₃.db.batches.get batchId = some b) (hSome : ids ≠ [])
    (hUploading : b.status = .uploading) :
    ∀ f ∈ s₃.db.files.rows, f.batchId = batchId → f.id ∈ ids := by
  obtain ⟨hHeld, hBatch⟩ := h.found hRely hExists
  have hCons : Consistent s.db s.now := Sound.consistent hRely.before
  obtain ⟨id, hId⟩ := List.exists_mem_of_ne_nil _ hSome
  obtain ⟨f, hGet, hBatchId, _, hOverdue⟩ := (h.overdue id).mp hId
  intro f' hf' hBatchId'
  obtain ⟨f₂, hGet₂, hBatchId₂⟩ := (rely_lock hRely hHeld hBatch).origin f' hf' hBatchId'
  have hEarly := (hCons.agrees _ b hBatch).uploading hUploading f₂.status
    (mem_statuses.mpr ⟨f₂, Table.mem_of_get hGet₂, hBatchId₂, rfl⟩)
  have hWindow := hCons.windowed f₂ (Table.mem_of_get hGet₂) b (hBatchId₂ ▸ hBatch) hUploading
  have hWindow' := hCons.windowed f (Table.mem_of_get hGet) b (hBatchId ▸ hBatch) hUploading
  refine (h.overdue f'.id).mpr ⟨f₂, hGet₂, hBatchId₂, ?_, by omega⟩
  rcases hEarly with hStatus | hStatus <;> (rw [hStatus]; decide)

/-- What a sweep that has found overdue files writes is a sweep as it may be committed. -/
theorem Sweeping.agrees (hRely₃ : (discipline services p).Rely held s s₃)
    (hRely₄ : (discipline services p).Rely held s₃ s₄)
    (hRely₇ : (discipline services p).Rely held s₃ s₇)
    (hExists : s₃.db.batches.get batchId = some b) (hSome : ids ≠ [])
    (hRolled : RolledUp batchId (s₃.db.changeFiles ids fun f => { f with status := .expired })
      (s₄.db.changeFiles ids fun f => { f with status := .expired }) rolled) :
    ((s₇.db.changeFiles ids fun f => { f with status := .expired }).setStatus rolled
      (rolledStatus ((s₃.db.changeFiles ids fun f => { f with status := .expired }).statuses
        batchId))).AgreesOn batchId := by
  obtain ⟨hBatchHeld, hBatch⟩ := h.found hRely₃ hExists
  obtain ⟨id, hId⟩ := List.exists_mem_of_ne_nil _ hSome
  obtain ⟨f, _, hGet₃, hBatchId, hLive, hOverdue⟩ := h.kept hRely₃ hId
  have hOld : ¬ s₃.now ≤ b.createdAt + transactionTimeoutMs := by
    have hLasting :=
      (rely_consistent hRely₃).lasting f (Table.mem_of_get hGet₃) hLive b (hBatchId ▸ hExists)
    have hLater := rely_now hRely₃
    have hPast := h.past
    unfold hourMs at hLasting
    unfold transactionTimeoutMs
    omega
  have hMatches : Matches (PassesLock (s₃.now ≤ b.createdAt + transactionTimeoutMs))
      ((s₃.db.changeFiles ids fun f => { f with status := .expired }).statuses batchId)
      ((s₇.db.changeFiles ids fun f => { f with status := .expired }).statuses batchId) :=
    (rely_lock hRely₇ hBatchHeld hExists).matches (by exact fun _ => rfl) (by exact fun _ => rfl)
      fun k hk f' hGet' => rely_file hRely₇ (h.files k hk) hGet'
  have hQuiet := hMatches.mono fun _ _ _ _ hPasses => Or.resolve_right hPasses fun hYoung =>
    hOld hYoung.2.2
  refine sweep_agrees hQuiet (fun k hk f' hGet' => ?_) (h.all_of_uploading hRely₃ hExists hSome)
    ((rely_consistent hRely₃).agrees _ b hExists) ?_ ?_ ?_ hRolled
  · obtain ⟨_, _, hSame, _, hLive', _⟩ := h.kept hRely₃ hk
    cases hGet'.symm.trans hSame
    exact hLive'
  · exact List.ne_nil_of_mem (mem_statuses.mpr ⟨f, Table.mem_of_get hGet₃, hBatchId, rfl⟩)
  · exact rely_batch hRely₇ hBatchHeld hExists
  · exact rely_batch hRely₄ hBatchHeld hExists

end Sweeping

theorem wp_expireBatch {now : Nat} {batchId : Uuid} (hCall : call.admission = none)
    (hNow : now ≤ s.now) (hIssued : batchId ∈ s.db.issued) :
    Wp (discipline services p) call (expireBatch now batchId)
      (fun _ l s' => AtRest l ∧ (discipline services p).Rely (fun _ => False) s s')
        (.outside replies) s := by
  refine wp_transaction (fun _ _ s' hRely => wp_at_rest fun s'' hNext =>
    ⟨atRest_outside _, hRely.trans hNext⟩)
    fun s₀ l₀ tx₀ hRely₀ hWithin₀ hOpened => ?_
  refine wp_statement hWithin₀ (fun v id hMem => by simp at hMem)
    fun s₁ v₁ l₁ tx₁ hRely₁ _ hDb₁ _ _ hWithin₁ hRan₁ => ?_
  rw [Script.bind_done]
  refine wp_statement hWithin₁ (fun v id hMem => by simp at hMem)
    fun s₂ v₂ l₂ tx₂ hRely₂ _ hDb₂ _ _ hWithin₂ hRan₂ => ?_
  rw [Script.bind_done]
  rw [hOpened.pending] at hDb₁
  rw [hRan₁.pending, hOpened.pending] at hDb₂
  change v₁.db = s₁.db at hDb₁
  change v₂.db = s₂.db at hDb₂
  have hRely₀₁ := hRely₀.trans (rely_outside hRely₁)
  have hRely₀₂ := hRely₀₁.trans (rely_outside hRely₂)
  obtain ⟨ids, hIds⟩ : ∃ ids, ids =
      (v₂.db.files.select fun f => f.batchId = batchId && f.overdue now).map ConversionFile.id :=
        ⟨_, rfl⟩
  have hPending₂ : ∀ db, tx₂.pending db = db.changeFiles ids fun f =>
    { f with status := .expired } := by
    intro db
    rw [hRan₂.pending, hRan₁.pending, hOpened.pending, hIds]
    rfl
  have hSweeping : Sweeping now batchId ids l₂.held s₂ := by
    refine ⟨fun id => ?_, fun id hId => ?_, fun b hb => ?_, rely_issued hRely₀₂ hIssued,
      hNow.trans (rely_now hRely₀₂)⟩
    · rw [hIds, hDb₂, Table.mem_map_select]
      simp [overdue_iff]
    · rw [hIds] at hId
      obtain ⟨f, hf, rfl⟩ := List.mem_map.mp hId
      exact hRan₂.takes (List.mem_map_of_mem hf)
    · obtain ⟨b₁, hb₁⟩ := rely_existed hRely₂ (rely_issued hRely₀₁ hIssued) hb
      refine hRan₂.keeps _ (hRan₁.takes ?_)
      exact locked_batch (hDb₁ ▸ hb₁)
  refine Wp.bind hRely₂.inv (wp_rollUpBatch hWithin₂
    fun s₃ s₄ s₅ rolled l₅ tx₅ result hRely₃ hRely₄ hRely₅
    hWithin₅ hExtends hRolled hPending hHeld => ?_)
  refine wp_finish hWithin₅ fun s₆ hRely₆ hWithin₆ => ?_
  refine wp_commit hWithin₆ fun s₇ hRely₇ _ => ?_
  have hRely₃₇ := hRely₄.trans (hExtends.rely (hRely₅.trans (hRely₆.trans hRely₇)))
  have hRely₀₇ := hRely₀₂.trans (rely_outside (hRely₃.trans hRely₃₇))
  refine ⟨?_, fun s₈ hRecord hRely₈ => ⟨atRest_outside _, hRely₀₇.trans (hRecord.trans hRely₈)⟩⟩
  rw [hPending₂, hPending₂] at hRolled
  have hAfter : ∀ db, tx₅.pending db =
    (db.changeFiles ids fun f => { f with status := .expired }).setStatus rolled
      (rolledStatus ((s₃.db.changeFiles ids fun f => { f with status := .expired }).statuses
        batchId)) := by
    intro db
    rw [hPending, Function.comp_apply, hPending₂, hPending₂]
  have hIdle : ids = [] → rolled = [] →
      ∃ c, p.Assumes (commitEntry call l₅ tx₅ s₇) →
        Committing services p l₅.held s₇ (commitEntry call l₅ tx₅ s₇) c := by
    intro hNoFile hNoBatch
    refine ⟨.nothing, fun _ =>
      committing_unchanged (hWithin₆.later hRely₇) ?_ (storageChecked_of_call hCall)⟩
    rw [hAfter, hNoFile, hNoBatch, changeFiles_nil]
    exact changeBatches_nil
  cases hExists : s₃.db.batches.get batchId with
  | none =>
    -- the batch has been purged
    obtain ⟨hNoFile, hNoBatch⟩ := hSweeping.idle_of_purged hRely₃ hRely₄ hExists hRolled
    exact hIdle hNoFile hNoBatch
  | some b =>
    obtain ⟨hBatchHeld, _⟩ := hSweeping.found hRely₃ hExists
    by_cases hSome : ids = []
    · refine hIdle hSome (hRolled.idle ?_ (rely_batch hRely₄ hBatchHeld hExists))
      rw [hSome, changeFiles_nil]
      exact (rely_consistent hRely₃).agrees _ b hExists
    · refine ⟨.sweep batchId ids rolled
        (rolledStatus ((s₃.db.changeFiles ids fun f => { f with status := .expired }).statuses
          batchId)), fun _ =>
        ⟨rfl, rfl, (hWithin₆.later hRely₇).started, ⟨fun k hk => ?_,
          fun k hk => ⟨hRolled.eq_batchId hk, rolledStatus_ne_uploading⟩, ?_⟩, hAfter s₇.db,
            fun h => absurd rfl h,
          fun _ => storageChecked_of_call hCall, trivial, ?_⟩⟩
      · obtain ⟨f, _, hGet, hBatchId, hLive, hOverdue⟩ := hSweeping.kept (hRely₃.trans hRely₃₇) hk
        exact ⟨f, hGet, hBatchId, hLive, hOverdue.trans (hNow.trans (rely_now hRely₀₇))⟩
      · exact hSweeping.agrees hRely₃ hRely₄ hRely₃₇ hExists hSome hRolled
      · rintro r (rfl | ⟨k, hk, rfl⟩)
        · exact hExtends.held _ hBatchHeld
        · exact hExtends.held _ (hSweeping.files k hk)

theorem wp_expireOverdueFiles (hCall : call.admission = none) :
    Wp (discipline services p) call expireOverdueFiles (fun _ l _ => AtRest l)
      (.outside replies) s := by
  refine wp_read (by decide) fun s₁ v₁ hRely₁ hDb₁ _ hClock₁ => ?_
  rw [Script.bind_done]
  refine wp_read (by decide) fun s₂ v₂ hRely₂ hDb₂ _ _ => ?_
  rw [Script.bind_done]
  refine (Wp.forEach (I := fun rest l s' =>
    AtRest l ∧ (ledger services p).Sound s' ∧ v₁.clock ≤ s'.now ∧
    ∀ id ∈ rest, id ∈ s'.db.issued) (fun _ _ _ h => h.2.1) ?_ ?_
      ⟨atRest_outside _, hRely₂.inv, ?_, fun id hMem => ?_⟩).mono
      fun _ _ _ _ h => h.1
  · rintro batchId rest l s' ⟨⟨replies', rfl⟩, _, hNow, hIssued⟩
    refine (wp_expireBatch hCall hNow (hIssued batchId List.mem_cons_self)).mono
      fun _ l s'' hInv h => ?_
    exact ⟨h.1, hInv, hNow.trans (rely_now h.2),
      fun id hMem => rely_issued h.2 (hIssued id (List.mem_cons_of_mem _ hMem))⟩
  · rintro l s' ⟨⟨replies', rfl⟩, _, hNow, _⟩
    exact wp_at_rest fun s'' hRely =>
      ⟨atRest_outside _, hRely.inv, hNow.trans (rely_now hRely), fun _ hMem => by cases hMem⟩
  · rw [hClock₁]
    exact rely_now hRely₂
  · rw [List.mem_eraseDups, List.mem_append] at hMem
    rcases hMem with hFile | hBatch
    · obtain ⟨f, hf, rfl⟩ := List.mem_map.mp hFile
      rw [hDb₁] at hf
      have hCons := rely_consistent hRely₁
      obtain ⟨b, hb⟩ :=
        hCons.owned f (Table.mem_select.mp (mem_orderBy.mp (List.mem_of_mem_take hf))).1
      rw [← Table.key_of_get hb]
      exact rely_issued hRely₂ (hCons.issuedBatches b (Table.mem_of_get hb))
    · obtain ⟨b, hb, rfl⟩ := List.mem_map.mp hBatch
      rw [hDb₂] at hb
      exact (rely_consistent hRely₂).issuedBatches b
        (Table.mem_select.mp (mem_orderBy.mp (List.mem_of_mem_take hb))).1

/-! ## The purge -/

theorem mem_deadBatches {db : Database} {cutoff : Nat} {b : ConversionBatch} :
    b ∈ db.deadBatches cutoff ↔
      b ∈ db.batches.rows ∧ b.expiresAt ≤ cutoff ∧
      ∀ f ∈ db.filesOf b.id, f.status ∉ liveFileStatuses := by
  simp [Database.deadBatches]

theorem dayOf_le_dayOf {t t' : Nat} (h : t ≤ t') : dayOf t ≤ dayOf t' := Nat.div_le_div_right h

theorem wp_purgeDeadRows :
    Wp (discipline services p) .purgeDeadRows purgeDeadRows (fun _ l _ => AtRest l)
      (.outside replies) s := by
  refine wp_autocommit (fun v id hMem => by simp at hMem) fun s₁ v₁ hRely₁ hDb₁ _ hClock₁ =>
    ⟨?_, fun hRecord₁ => ?_⟩
  · rw [hDb₁, hClock₁]
    refine ⟨.purge ((s₁.db.deadBatches (s₁.now - purgeGraceMs)).map ConversionBatch.id), rfl, rfl,
      le_rfl, ?_, rfl,
      fun h => absurd rfl h, fun _ => storageChecked_of_call rfl, trivial, ?_⟩
    · intro id hMem
      obtain ⟨b, hb, rfl⟩ := List.mem_map.mp hMem
      obtain ⟨hRow, hExpired, hDead⟩ := mem_deadBatches.mp hb
      exact ⟨b, Table.get_of_mem hRow, hExpired, hDead⟩
    · rintro r (⟨id, hMem, rfl⟩ | ⟨f, hf, hMem, rfl⟩)
      · obtain ⟨b, hb, rfl⟩ := List.mem_map.mp hMem
        exact List.mem_append_left _ (List.mem_map_of_mem hb)
      · obtain ⟨b, hb, hId⟩ := List.mem_map.mp hMem
        refine List.mem_append_right _ (List.mem_flatMap.mpr ⟨b, hb, List.mem_map_of_mem ?_⟩)
        exact Database.mem_filesOf.mpr ⟨hf, hId.symm⟩
  · rw [Script.bind_done]
    refine wp_autocommit (fun v id hMem => by simp at hMem) fun s₂ v₂ hRely₂ hDb₂ _ _ =>
      ⟨?_, fun _ => ?_⟩
    · rw [hDb₂]
      refine ⟨.purgeUsage ((s₂.db.staleUsage (v₁.clock - purgeGraceMs)).map DailyUsage.key), rfl,
        rfl, le_rfl, ?_, rfl,
        fun h => absurd rfl h, fun _ => storageChecked_of_call rfl, trivial, ?_⟩
      · refine ⟨rfl, fun key hMem => ?_⟩
        obtain ⟨row, hRow, rfl⟩ := List.mem_map.mp hMem
        have hStale : row.usageDate < dayOf (v₁.clock - purgeGraceMs) :=
          of_decide_eq_true (Table.mem_select.mp hRow).2
        refine hStale.trans_le (dayOf_le_dayOf (Nat.sub_le_sub_right ?_ _))
        rw [hClock₁]
        exact rely_now (hRecord₁.trans hRely₂)
      · rintro r ⟨key, hMem, rfl⟩
        obtain ⟨row, hRow, rfl⟩ := List.mem_map.mp hMem
        exact List.mem_map_of_mem hRow
    · exact wp_at_rest fun _ _ => atRest_outside _

end Pixaeron.Conversion
