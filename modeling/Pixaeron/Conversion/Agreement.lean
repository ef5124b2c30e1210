import Pixaeron.Conversion.Discipline

/-! # Agreement under locks

How the statuses of a locked batch's files may drift, and which statuses still agree with them.
-/

namespace Pixaeron.Conversion

open Transactions

/-- Every member of one list has a partner in the other. -/
def Matches {α : Type} (R : α → α → Prop) (xs ys : List α) : Prop :=
  (∀ x ∈ xs, ∃ y ∈ ys, R x y) ∧ ∀ y ∈ ys, ∃ x ∈ xs, R x y

theorem Matches.mono {α : Type} {R R' : α → α → Prop} {xs ys : List α} (h : Matches R xs ys)
    (hLess : ∀ x ∈ xs, ∀ y ∈ ys, R x y → R' x y) : Matches R' xs ys := by
  constructor
  · intro x hx
    obtain ⟨y, hy, hR⟩ := h.1 x hx
    exact ⟨y, hy, hLess x hx y hy hR⟩
  · intro y hy
    obtain ⟨x, hx, hR⟩ := h.2 y hy
    exact ⟨x, hx, hLess x hx y hy hR⟩

variable {status : ConversionBatchStatus} {files files' : List ConversionFileStatus}

theorem Agrees.matches (h : Agrees status files)
    (hMatches : Matches Unnoticed files files') : Agrees status files' :=
  h.unnoticed hMatches.1 hMatches.2

/-- Results may be evicted as long as something is left. -/
theorem Agrees.evicted (h : Agrees status files)
    (hMatches : Matches (fun s s' => s' = s ∨ s = .completed ∧ s' = .expired) files files')
    (hStays : ∃ s ∈ files', s ≠ .expired) : Agrees status files' where
  terminal := by
    rw [h.terminal]
    constructor
    · intro hAll s' hs'
      obtain ⟨s, hs, rfl | ⟨_, rfl⟩⟩ := hMatches.2 s' hs'
      · exact hAll _ hs
      · decide
    · intro hAll s hs
      obtain ⟨s', hs', rfl | ⟨rfl, _⟩⟩ := hMatches.1 s hs
      · exact hAll _ hs'
      · decide
  expired := by
    obtain ⟨s', hs', hNot⟩ := hStays
    refine iff_of_false (fun hExpired => ?_) fun hAll => hNot (hAll s' hs')
    obtain ⟨s, hs, rfl | ⟨_, hEq⟩⟩ := hMatches.2 s' hs'
    · exact hNot (h.expired.mp hExpired _ hs)
    · exact hNot hEq
  completed hStatus := by
    have hAll : ∀ s' ∈ files', s' = .completed ∨ s' = .expired := by
      intro s' hs'
      obtain ⟨s, hs, rfl | ⟨_, hEq⟩⟩ := hMatches.2 s' hs'
      · exact (h.completed hStatus).1 _ hs
      · exact .inr hEq
    obtain ⟨s', hs', hNot⟩ := hStays
    exact ⟨hAll, (hAll s' hs').resolve_right hNot ▸ hs'⟩
  failed hStatus := by
    obtain ⟨hNone, s, hs, hFailed⟩ := h.failed hStatus
    constructor
    · intro hCompleted
      obtain ⟨s, hs, rfl | ⟨_, hEq⟩⟩ := hMatches.2 _ hCompleted
      · exact hNone hs
      · cases hEq
    · obtain ⟨s', hs', rfl | ⟨rfl, _⟩⟩ := hMatches.1 s hs
      · exact ⟨_, hs', hFailed⟩
      · exact absurd hs hNone
  uploading hStatus s' hs' := by
    obtain ⟨s, hs, rfl | ⟨rfl, _⟩⟩ := hMatches.2 s' hs'
    · exact h.uploading hStatus _ hs
    · exact absurd (h.uploading hStatus _ hs) (by decide)
  known := h.known

theorem Agrees.still_open (h : Agrees status files) (hOld : ∃ s ∈ files, s ∉ terminalFileStatuses)
    (hNew : ∃ s ∈ files', s ∉ terminalFileStatuses)
    (hUploading : status = .uploading → ∀ s ∈ files', s = .uploading ∨ s = .ready) :
    Agrees status files' := by
  obtain ⟨s, hs, hOpen⟩ := hOld
  obtain ⟨s', hs', hOpen'⟩ := hNew
  have hNot : status ∉ [.completed, .partialBatch, .failed, .expired] := fun hTerminal =>
    hOpen (h.terminal.mp hTerminal s hs)
  exact {
    terminal := iff_of_false hNot fun hAll => hOpen' (hAll s' hs')
    expired := iff_of_false (fun hEq => hNot (by rw [hEq]; decide)) fun hAll =>
      hOpen' (by rw [hAll s' hs']; decide)
    completed := fun hEq => absurd (by rw [hEq]; decide) hNot
    failed := fun hEq => absurd (by rw [hEq]; decide) hNot
    uploading := hUploading
    known := h.known }

theorem openBatch_of_not_terminal (hNot : status ∉ [.completed, .partialBatch, .failed, .expired])
    (hKnown : status ≠ .cancelled) : status ∈ openBatchStatuses := by
  revert hNot hKnown
  cases status <;> decide

theorem open_mem_rolledFrom (h : status ∈ openBatchStatuses) (rolled : ConversionBatchStatus) :
    status ∈ rolledFrom rolled := by
  unfold rolledFrom
  split
  · exact List.mem_append_left _ h
  · exact h

theorem rolledStatus_ne_uploading : rolledStatus files ≠ .uploading := by
  unfold rolledStatus
  split
  · decide
  · split
    · decide
    · split <;> decide

def afterRollUp (status : ConversionBatchStatus)
    (files : List ConversionFileStatus) : ConversionBatchStatus :=
  if status ∈ rolledFrom (rolledStatus files) then rolledStatus files else status

theorem Agrees.expiring (h : Agrees status files)
    (hMatches : Matches (fun s s' => s' = s ∨ s ∈ liveFileStatuses ∧ s' = .expired) files files')
    (hNonempty : files' ≠ []) (hTerminal : ∀ s ∈ files', s ∈ terminalFileStatuses) :
    Agrees (afterRollUp status files') files' := by
  unfold afterRollUp
  split
  · exact agrees_rolledStatus hNonempty hTerminal
  · next hKept =>
    have hNotOpen : status ∉ openBatchStatuses := fun hOpen => hKept (open_mem_rolledFrom hOpen _)
    have hStatus : status ∈ [.completed, .partialBatch, .failed, .expired] := by
      by_contra hNot
      exact hNotOpen (openBatch_of_not_terminal hNot h.known)
    have hOld := h.terminal.mp hStatus
    by_cases hAll : ∀ s ∈ files', s = .expired
    · rw [rolledStatus_expired.mpr hAll] at hKept
      have hLast : status = .failed ∨ status = .expired := by
        revert hKept hStatus
        cases status <;> decide
      rcases hLast with rfl | rfl
      · -- a failed file never expires
        obtain ⟨_, s, hs, hFailed⟩ := h.failed rfl
        obtain ⟨s', hs', hStep⟩ := hMatches.1 s hs
        have hExpired := hAll s' hs'
        subst hExpired
        rcases hStep with hSame | ⟨hLive, _⟩
        · rw [← hSame] at hFailed
          exact absurd hFailed (by decide)
        · rcases hFailed with rfl | rfl <;> exact absurd hLive (by decide)
      · have hEq : rolledStatus files' = .expired := rolledStatus_expired.mpr hAll
        exact hEq ▸ agrees_rolledStatus hNonempty hTerminal
    · push Not at hAll
      refine h.evicted (hMatches.mono fun s hs s' _ hStep => hStep.imp_right fun hExpired => ?_)
        hAll
      exact ⟨ConversionFileStatus.completed_of_live hExpired.1 (hOld s hs), hExpired.2⟩

/-! ## Behind a lock -/

theorem Unnoticed.trans {s s' s'' : ConversionFileStatus} (h : Unnoticed s s')
    (h' : Unnoticed s' s'') :
    Unnoticed s s'' := by
  rcases h with rfl | ⟨hOld, hNew, hEarly⟩
  · exact h'
  · rcases h' with rfl | ⟨_, hLast, hStill⟩
    · exact .inr ⟨hOld, hNew, hEarly⟩
    · exact .inr ⟨hOld, hLast, fun h => hStill (hEarly h)⟩

theorem PassesLock.trans {young : Prop} {s s' s'' : ConversionFileStatus}
    (h : PassesLock young s s') (h' : PassesLock young s' s'') : PassesLock young s s'' := by
  rcases h with hQuiet | ⟨rfl, rfl, hYoung⟩
  · rcases h' with hQuiet' | ⟨rfl, rfl, hYoung⟩
    · exact .inl (hQuiet.trans hQuiet')
    · exact .inr ⟨(hQuiet.eq_iff (by decide)).mp rfl, rfl, hYoung⟩
  · rcases h' with hSame | ⟨hCompleted, _⟩
    · exact .inr ⟨rfl, (hSame.eq_iff (by decide)).mpr rfl, hYoung⟩
    · cases hCompleted

theorem PassesLock.mono {young young' : Prop} {s s' : ConversionFileStatus}
    (h : PassesLock young s s') (hYoung : young → young') : PassesLock young' s s' :=
  h.imp_right fun ⟨hCompleted, hExpired, hStill⟩ => ⟨hCompleted, hExpired, hYoung hStill⟩

variable {services : Services} {p : Policy} {held : Resource → Prop}
  {s s' : Shared conversion Call} {id : Uuid}
  {b : ConversionBatch}

/-- What the holder of a batch's lock sees of its files. -/
structure SameFiles (young : Prop) (id : Uuid) (db db' : Database) : Prop where
  still : ∀ f ∈ db.files.rows, f.batchId = id → ∃ f',
    db'.files.get f.id = some f' ∧ f'.batchId = id ∧
    PassesLock young f.status f'.status
  origin : ∀ f' ∈ db'.files.rows, f'.batchId = id → ∃ f,
    db.files.get f'.id = some f ∧ f.batchId = id

theorem rely_lock (h : (discipline services p).Rely held s s') (hHeld : held (.batch id))
    (hBatch : s.db.batches.get id = some b) :
    SameFiles (s.now ≤ b.createdAt + transactionTimeoutMs) id s.db s'.db := by
  have hBoth : s'.db.batches.get id = some b ∧
    SameFiles (s.now ≤ b.createdAt + transactionTimeoutMs) id s.db s'.db := by
    refine rely_preserves h (P := fun db => db.batches.get id = some b ∧
      SameFiles (s.now ≤ b.createdAt + transactionTimeoutMs) id s.db db)
        (fun e _ _ _ hFrom hRespects hHere => ?_) ?_
    · obtain ⟨hb, hFiles⟩ := hHere
      obtain ⟨hb', hTo, hOrigin⟩ := hRespects _ hHeld b hb
      refine ⟨hb', fun f hf hId => ?_, fun f' hf' hId => ?_⟩
      · obtain ⟨f₁, hGet₁, hId₁, hPasses₁⟩ := hFiles.still f hf hId
        obtain ⟨f₂, hGet₂, hId₂, hPasses₂⟩ := hTo f₁ (Table.mem_of_get hGet₁) hId₁
        rw [Table.key_of_get hGet₁] at hGet₂
        exact ⟨f₂, hGet₂, hId₂, hPasses₁.trans (hPasses₂.mono fun hYoung => hFrom.trans hYoung)⟩
      · obtain ⟨f₁, hGet₁, hId₁⟩ := hOrigin f' hf' hId
        obtain ⟨f, hGet, hId₀⟩ := hFiles.origin f₁ (Table.mem_of_get hGet₁) hId₁
        rw [Table.key_of_get hGet₁] at hGet
        exact ⟨f, hGet, hId₀⟩
    · exact ⟨hBatch, fun f hf hId => ⟨f, Table.get_of_mem hf, hId, .inl (.refl _)⟩,
        fun f' hf' hId => ⟨f', Table.get_of_mem hf', hId⟩⟩
  exact hBoth.2

theorem mem_statuses_changeFiles {db : Database} {ids : List Uuid}
    {g : ConversionFile → ConversionFile} {hKey : ∀ row, (g row).id = row.id}
    (hBatchId : ∀ row, (g row).batchId = row.batchId) {st : ConversionFileStatus} :
    st ∈ (db.changeFiles ids g hKey).statuses id ↔ ∃ f ∈ db.files.rows, f.batchId = id ∧
      (if f.id ∈ ids then g f else f).status = st := by
  rw [mem_statuses]
  constructor
  · rintro ⟨f', hf', hId, rfl⟩
    obtain ⟨f, hf, rfl⟩ := List.mem_map.mp hf'
    refine ⟨f, hf, ?_, rfl⟩
    split at hId
    · rw [← hId, hBatchId]
    · exact hId
  · rintro ⟨f, hf, hId, rfl⟩
    refine ⟨_, List.mem_map_of_mem hf, ?_, rfl⟩
    split
    · rw [hBatchId, hId]
    · exact hId

/-- A transaction that has locked a batch and the files it has changed sees the statuses it will
commit, up to what passes its lock. -/
theorem SameFiles.matches {young : Prop} {db db' : Database} (h : SameFiles young id db db')
    {ids : List Uuid} {g : ConversionFile → ConversionFile} (hKey : ∀ row, (g row).id = row.id)
    (hBatchId : ∀ row, (g row).batchId = row.batchId)
    (hIds : ∀ k ∈ ids, ∀ f, db.files.get k = some f → db'.files.get k = some f) :
    Matches (PassesLock young) ((db.changeFiles ids g hKey).statuses id)
      ((db'.changeFiles ids g hKey).statuses id) := by
  have hPair : ∀ f ∈ db.files.rows, f.batchId = id → ∃ f',
    db'.files.get f.id = some f' ∧ f'.batchId = id ∧
      PassesLock young (if f.id ∈ ids then g f else f).status
        (if f.id ∈ ids then g f' else f').status := by
    intro f hf hId
    by_cases hMem : f.id ∈ ids
    · exact ⟨f, hIds f.id hMem f (Table.get_of_mem hf), hId,
        by simp only [hMem, if_true]; exact .inl (.refl _)⟩
    · obtain ⟨f', hGet', hId', hPasses⟩ := h.still f hf hId
      exact ⟨f', hGet', hId', by simpa only [hMem, if_false] using hPasses⟩
  constructor
  · intro st hSt
    obtain ⟨f, hf, hId, rfl⟩ := (mem_statuses_changeFiles hBatchId).mp hSt
    obtain ⟨f', hGet', hId', hPasses⟩ := hPair f hf hId
    rw [← Table.key_of_get hGet'] at hPasses
    refine ⟨_, (mem_statuses_changeFiles hBatchId).mpr ⟨f', Table.mem_of_get hGet', hId', rfl⟩, ?_⟩
    rw [Table.key_of_get hGet'] at hPasses ⊢
    exact hPasses
  · intro st hSt
    obtain ⟨f', hf', hId', rfl⟩ := (mem_statuses_changeFiles hBatchId).mp hSt
    obtain ⟨f, hGet, hId⟩ := h.origin f' hf' hId'
    obtain ⟨f'', hGet'', _, hPasses⟩ := hPair f (Table.mem_of_get hGet) hId
    rw [Table.key_of_get hGet, Table.get_of_mem hf', Option.some.injEq] at hGet''
    subst hGet''
    refine ⟨_, (mem_statuses_changeFiles hBatchId).mpr ⟨f, Table.mem_of_get hGet, hId, rfl⟩, ?_⟩
    rw [Table.key_of_get hGet] at hPasses ⊢
    exact hPasses

end Pixaeron.Conversion
