import Pixaeron.Conversion.System

/-! # How rows may change

The moves of a file and of a batch, and the agreement between the status of a batch and the
statuses of its files.
-/

namespace Pixaeron.Conversion

open Transactions

/-- The statuses a file may have after one change. -/
def ConversionFileStatus.moves : ConversionFileStatus → List ConversionFileStatus
  | .uploading => [.uploading, .ready, .expired]
  | .ready => [.ready, .queued, .expired]
  | .queued => [.queued, .processing, .completed, .failed, .expired]
  | .processing => [.processing, .completed, .failed, .expired]
  | .completed => [.completed, .expired]
  | .failed => [.failed]
  | .cancelled => [.cancelled]
  | .expired => [.expired]

def ConversionFileStatus.rank : ConversionFileStatus → Nat
  | .uploading => 0
  | .ready => 1
  | .queued => 2
  | .processing => 3
  | _ => 4

theorem ConversionFileStatus.mem_moves_self (status : ConversionFileStatus) :
    status ∈ status.moves := by
  cases status <;> decide

theorem ConversionFileStatus.rank_le_of_moves {status status' : ConversionFileStatus}
    (h : status' ∈ status.moves) :
    status.rank ≤ status'.rank := by
  revert h
  cases status <;> cases status' <;> decide

theorem ConversionFileStatus.terminal_moves {status status' : ConversionFileStatus}
    (h : status' ∈ status.moves) (hTerminal : status ∈ terminalFileStatuses) :
    status' = status ∨ status = .completed ∧ status' = .expired := by
  revert h hTerminal
  cases status <;> cases status' <;> decide

theorem ConversionFileStatus.expired_mem_moves {status : ConversionFileStatus}
    (h : status ∈ liveFileStatuses) :
    .expired ∈ status.moves := by
  revert h
  cases status <;> decide

theorem ConversionFileStatus.accepting_moves {status : ConversionFileStatus}
    (h : status ∈ eventAcceptingFileStatuses) :
    (.processing ∈ status.moves ∧ .completed ∈ status.moves ∧ .failed ∈ status.moves) ∧
      status ∉ terminalFileStatuses := by
  revert h
  cases status <;> decide

theorem ConversionFileStatus.completed_of_live {status : ConversionFileStatus}
    (h : status ∈ liveFileStatuses) (hTerminal : status ∈ terminalFileStatuses) :
    status = .completed := by
  revert h hTerminal
  cases status <;> decide

/-- The expiry of a file leaves everything else of it as it was. -/
def ConversionFile.expireAt (f : ConversionFile) (expiresAt : Nat) : ConversionFile :=
  { f with status := .expired, expiresAt }

/-- One change of a file. Its input is fixed when it has been verified and its result when it
has become terminal; the attempt only grows. -/
structure FileStep (f f' : ConversionFile) : Prop where
  id : f'.id = f.id
  batchId : f'.batchId = f.batchId
  inputObjectKey : f'.inputObjectKey = f.inputObjectKey
  attempt : f.attempt ≤ f'.attempt
  progress : f'.status ∈ f.status.moves
  input : f.status ≠ .uploading → f'.inputBytes = f.inputBytes ∧ f'.inputEtag = f.inputEtag
  measured : f'.status = .ready → f.status = .ready ∨ f'.inputBytes.isSome ∧ f'.inputEtag.isSome
  final : f.status ∈ terminalFileStatuses →
    f' = f ∨ f.status = .completed ∧ f' = f.expireAt f'.expiresAt
  expiry : f'.status ∈ liveFileStatuses →
    f'.expiresAt = f.expiresAt ∨ f.status = .ready ∧ f'.status = .queued

theorem FileStep.refl (f : ConversionFile) : FileStep f f where
  id := rfl
  batchId := rfl
  inputObjectKey := rfl
  attempt := le_rfl
  progress := f.status.mem_moves_self
  input _ := ⟨rfl, rfl⟩
  measured h := .inl h
  final _ := .inl rfl
  expiry _ := .inl rfl

/-- One change of a batch: only its status and its expiry change. -/
def BatchStep (b b' : ConversionBatch) : Prop :=
  b' = { b with status := b'.status, expiresAt := b'.expiresAt }

theorem BatchStep.refl (b : ConversionBatch) : BatchStep b b := rfl

theorem BatchStep.trans {b b' b'' : ConversionBatch} (h : BatchStep b b') (h' : BatchStep b' b'') :
    BatchStep b b'' := by
  unfold BatchStep at *
  rw [h', h]

theorem BatchStep.subject {b b' : ConversionBatch} (h : BatchStep b b') :
    b'.subject = b.subject := by
  rw [h]

theorem BatchStep.createdAt {b b' : ConversionBatch} (h : BatchStep b b') :
    b'.createdAt = b.createdAt := by
  rw [h]

/-- The status of a batch says about its files what it is meant to say. -/
structure Agrees (status : ConversionBatchStatus) (files : List ConversionFileStatus) : Prop where
  terminal : status ∈ [.completed, .partialBatch, .failed, .expired] ↔
    ∀ s ∈ files, s ∈ terminalFileStatuses
  expired : status = .expired ↔ ∀ s ∈ files, s = .expired
  completed : status = .completed → (∀ s ∈ files, s = .completed ∨ s = .expired) ∧
    .completed ∈ files
  failed : status = .failed → .completed ∉ files ∧ ∃ s ∈ files, s = .failed ∨ s = .cancelled
  uploading : status = .uploading → ∀ s ∈ files, s = .uploading ∨ s = .ready
  known : status ≠ .cancelled

/-- A change of a file's status that no batch notices. -/
def Unnoticed (s s' : ConversionFileStatus) : Prop :=
  s' = s ∨ s ∉ terminalFileStatuses ∧ s' ∉ terminalFileStatuses ∧
    (s = .uploading ∨ s = .ready → s' = .uploading ∨ s' = .ready)

theorem Unnoticed.refl (s : ConversionFileStatus) : Unnoticed s s := .inl rfl

theorem Unnoticed.terminal {s s' : ConversionFileStatus} (h : Unnoticed s s') :
    s' ∈ terminalFileStatuses ↔ s ∈ terminalFileStatuses := by
  rcases h with rfl | ⟨hOld, hNew, _⟩
  · exact Iff.rfl
  · exact iff_of_false hNew hOld

theorem Unnoticed.eq_iff {s s' t : ConversionFileStatus} (h : Unnoticed s s')
    (hTerminal : t ∈ terminalFileStatuses) :
    s' = t ↔ s = t := by
  rcases h with rfl | ⟨hOld, hNew, _⟩
  · exact Iff.rfl
  · exact iff_of_false (fun h => hNew (h ▸ hTerminal)) (fun h => hOld (h ▸ hTerminal))

theorem Agrees.unnoticed {status : ConversionBatchStatus} {files files' : List ConversionFileStatus}
    (h : Agrees status files) (hTo : ∀ s ∈ files, ∃ s' ∈ files', Unnoticed s s')
    (hFrom : ∀ s' ∈ files', ∃ s ∈ files, Unnoticed s s') : Agrees status files' where
  terminal := by
    rw [h.terminal]
    constructor
    · intro hAll s' hs'
      obtain ⟨s, hs, hSame⟩ := hFrom s' hs'
      exact hSame.terminal.mpr (hAll s hs)
    · intro hAll s hs
      obtain ⟨s', hs', hSame⟩ := hTo s hs
      exact hSame.terminal.mp (hAll s' hs')
  expired := by
    rw [h.expired]
    constructor
    · intro hAll s' hs'
      obtain ⟨s, hs, hSame⟩ := hFrom s' hs'
      exact (hSame.eq_iff (by decide)).mpr (hAll s hs)
    · intro hAll s hs
      obtain ⟨s', hs', hSame⟩ := hTo s hs
      exact (hSame.eq_iff (by decide)).mp (hAll s' hs')
  completed hStatus := by
    obtain ⟨hAll, hSome⟩ := h.completed hStatus
    constructor
    · intro s' hs'
      obtain ⟨s, hs, hSame⟩ := hFrom s' hs'
      exact (hAll s hs).imp (hSame.eq_iff (by decide)).mpr (hSame.eq_iff (by decide)).mpr
    · obtain ⟨s', hs', hSame⟩ := hTo _ hSome
      exact (hSame.eq_iff (by decide)).mpr rfl ▸ hs'
  failed hStatus := by
    obtain ⟨hNone, s, hs, hFailed⟩ := h.failed hStatus
    constructor
    · intro hCompleted
      obtain ⟨s, hs, hSame⟩ := hFrom _ hCompleted
      exact hNone ((hSame.eq_iff (by decide)).mp rfl ▸ hs)
    · obtain ⟨s', hs', hSame⟩ := hTo s hs
      exact ⟨s', hs', hFailed.imp (hSame.eq_iff (by decide)).mpr (hSame.eq_iff (by decide)).mpr⟩
  uploading hStatus := by
    intro s' hs'
    obtain ⟨s, hs, hSame⟩ := hFrom s' hs'
    rcases hSame with rfl | ⟨_, _, hEarly⟩
    · exact h.uploading hStatus _ hs
    · exact hEarly (h.uploading hStatus s hs)
  known := h.known

/-- With a file that is not terminal, every open status agrees but for UPLOADING. -/
theorem Agrees.of_open {status : ConversionBatchStatus} {files : List ConversionFileStatus}
    (hOpen : status = .queued ∨ status = .processing)
    (hFile : ∃ s ∈ files, s ∉ terminalFileStatuses) : Agrees status files := by
  obtain ⟨s, hMem, hLive⟩ := hFile
  have hNotAll : ¬ ∀ s ∈ files, s ∈ terminalFileStatuses := fun h => hLive (h s hMem)
  have hNotExpired : ¬ ∀ s ∈ files, s = .expired := fun h => hLive (by rw [h s hMem]; decide)
  rcases hOpen with rfl | rfl <;> exact {
    terminal := iff_of_false (by decide) hNotAll
    expired := iff_of_false (by decide) hNotExpired
    completed := by intro h; cases h
    failed := by intro h; cases h
    uploading := by intro h; cases h
    known := by decide }

theorem agrees_uploading {files : List ConversionFileStatus} (hNonempty : files ≠ [])
    (hUploading : ∀ s ∈ files, s = .uploading) : Agrees .uploading files := by
  obtain ⟨s, hs⟩ := List.exists_mem_of_ne_nil _ hNonempty
  have hMem : ConversionFileStatus.uploading ∈ files := hUploading s hs ▸ hs
  exact {
    terminal := iff_of_false (by decide) fun h => absurd (h _ hMem) (by decide)
    expired := iff_of_false (by decide) fun h => absurd (h _ hMem) (by decide)
    completed := by intro h; cases h
    failed := by intro h; cases h
    uploading := fun _ s hs => .inl (hUploading s hs)
    known := by decide }

theorem rolledStatus_expired {files : List ConversionFileStatus} :
    rolledStatus files = .expired ↔ ∀ s ∈ files, s = .expired := by
  unfold rolledStatus
  constructor
  · intro h
    split at h
    · next hAll => exact fun s hs => (List.count_eq_length.mp hAll s hs).symm
    · split at h <;> (try split at h) <;> cases h
  · intro h
    rw [if_pos (List.count_eq_length.mpr fun s hs => (h s hs).symm)]

theorem agrees_rolledStatus {files : List ConversionFileStatus} (hNonempty : files ≠ [])
    (hTerminal : ∀ s ∈ files, s ∈ terminalFileStatuses) : Agrees (rolledStatus files) files where
  terminal := by
    refine iff_of_true ?_ hTerminal
    unfold rolledStatus
    split
    · decide
    · split
      · decide
      · split <;> decide
  expired := rolledStatus_expired
  completed h := by
    unfold rolledStatus at h
    split at h
    · cases h
    · split at h
      · next hAll =>
        have hAll := List.count_eq_length.mp hAll
        obtain ⟨s, hs⟩ := List.exists_mem_of_ne_nil _ hNonempty
        exact ⟨fun s hs => .inl (hAll s hs).symm, by rw [hAll s hs]; exact hs⟩
      · split at h <;> cases h
  failed h := by
    unfold rolledStatus at h
    split at h
    · cases h
    next hSome =>
    split at h
    · cases h
    split at h
    · next hNone =>
      have hNotCompleted : ConversionFileStatus.completed ∉ files := List.count_eq_zero.mp hNone
      refine ⟨hNotCompleted, ?_⟩
      rw [List.count_eq_length] at hSome
      push Not at hSome
      obtain ⟨s, hs, hNot⟩ := hSome
      refine ⟨s, hs, ?_⟩
      have hStatus := hTerminal s hs
      revert hStatus hNot
      cases s <;> first | decide | exact fun _ _ => absurd hs hNotCompleted
    · cases h
  uploading h := by
    unfold rolledStatus at h
    split at h
    · cases h
    · split at h
      · cases h
      · split at h <;> cases h
  known := by
    unfold rolledStatus
    split
    · decide
    · split
      · decide
      · split <;> decide

end Pixaeron.Conversion
