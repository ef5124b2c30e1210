import Pixaeron.Conversion.Consistency

/-! # What a lock protects

While a transaction holds a lock, the entries of the others respect it. Each commit touches the
resources of its footprint, and it respects every lock outside.
-/

namespace Pixaeron.Conversion

open Transactions

/-- How the status of a file may change while another transaction holds the lock on its batch. An
eviction may pass the lock of a batch that is younger than the eviction's transaction. -/
def PassesLock (young : Prop) (s s' : ConversionFileStatus) : Prop :=
  Unnoticed s s' ∨ s = .completed ∧ s' = .expired ∧ young

def Respects (p : Policy) : Resource → LogEntry → Prop
  | .batch id, e => ∀ b, e.before.batches.get id = some b → e.after.batches.get id = some b ∧
    (∀ f ∈ e.before.files.rows, f.batchId = id → ∃ f',
      e.after.files.get f.id = some f' ∧ f'.batchId = id ∧
      PassesLock (e.endedAt ≤ b.createdAt + transactionTimeoutMs) f.status f'.status) ∧
    ∀ f' ∈ e.after.files.rows, f'.batchId = id → ∃ f,
      e.before.files.get f'.id = some f ∧ f.batchId = id
  | .file id, e => ∀ f, e.before.files.get id = some f → e.after.files.get id = some f
  | .usage key, e => e.after.usage.get key = e.before.usage.get key
  | .outbox id, e =>
    ∀ event, e.before.outbox.get id = some event → e.after.outbox.get id = some event
  | .subject subject, e =>
    (∀ f f', e.before.files.get f.id = some f → e.before.subjectOf f = some subject →
      f.status ≠ .expired →
      e.after.files.get f.id = some f' → f'.status = .expired →
      ∃ b, e.before.batches.get f.batchId = some b ∧ b.createdAt + hourMs ≤ e.endedAt) ∧
    (p.cap subject ≠ none → ∀ t, e.after.storageUsed subject t ≤ e.before.storageUsed subject t)

def Admission.footprint (p : Policy) (e : LogEntry) (a : Admission) (r : Resource) : Prop :=
  (∃ id, (id ∈ a.claimedIds ∨ id ∈ a.evicted) ∧ r = .file id) ∨ r = .batch a.batch.id ∨
    (∃ id ∈ a.rolled, r = .batch id) ∨
    (∃ id ∈ a.evicted, ∃ f b, e.before.files.get id = some f ∧
      e.before.batches.get f.batchId = some b ∧
      b.createdAt + transactionTimeoutMs < e.endedAt ∧ r = .batch f.batchId) ∨
    ((a.evicted ≠ [] ∨ p.cap a.batch.subject ≠ none) ∧ r = .subject a.batch.subject) ∨
    a.snapshot.dailyFiles ≠ none ∧ r = .usage (a.batch.subject, dayOf a.startedAt)

/-- The resources a commit touches. -/
def Commit.footprint (p : Policy) (e : LogEntry) : Commit → Resource → Prop
  | .verify ids _, r => ∃ id ∈ ids, r = .file id
  | .admission a, r => a.footprint p e r
  | .start ids _ _, r => ∃ id ∈ ids, r = .file id
  | .process ids, r => ∃ id ∈ ids, r = .batch id
  | .finish event _ _ _, r => r = .file event.fileId ∨ r = .batch event.batchId
  | .sweep batchId ids _ _, r => r = .batch batchId ∨ ∃ id ∈ ids, r = .file id
  | .purge ids, r =>
    (∃ id ∈ ids, r = .batch id) ∨ ∃ f ∈ e.before.files.rows, f.batchId ∈ ids ∧ r = .file f.id
  | .purgeUsage keys, r => ∃ key ∈ keys, r = .usage key
  | .publish deliveredIds failedIds _, r =>
    ∃ id, (id ∈ deliveredIds ∨ id ∈ failedIds) ∧ r = .outbox id
  | _, _ => False

variable {services : Services} {p : Policy} {e : LogEntry} {c : Commit}

theorem Commit.spares_file {id : Uuid} {f : ConversionFile} (hGet : e.before.files.get id = some f)
    (hApart : ¬ c.footprint p e (.file id)) :
    (c.apply services e.before).files.get id = some f := by
  have hChanged {ids : List Uuid} {g : ConversionFile → ConversionFile} {hKey : ∀ row,
    (g row).id = row.id}
      {db : Database} (hFiles : db.files = (e.before.changeFiles ids g hKey).files)
        (hMem : id ∉ ids) :
      db.files.get id = some f := by
    rw [hFiles, Database.changeFiles_files, Table.get_modify_of_not_mem hMem, hGet]
  cases c with
  | create input snapshot planCode drawn now =>
    rw [Commit.apply, Database.get_insertBatch_files, hGet, Option.some_or]
  | verify ids stored => exact hChanged rfl fun hMem => hApart ⟨id, hMem, rfl⟩
  | admission a =>
    have hClaimed : id ∉ a.claimedIds := fun hMem => hApart (.inl ⟨id, .inl hMem, rfl⟩)
    have hEvicted : id ∉ a.evicted := fun hMem => hApart (.inl ⟨id, .inr hMem, rfl⟩)
    rw [Commit.apply, Admission.get_not_claimed hClaimed, hGet, Option.map_some, if_neg hEvicted]
  | start ids event startedAt => exact hChanged rfl fun hMem => hApart ⟨id, hMem, rfl⟩
  | finish event data rolled status =>
    have hFiles : (Commit.finish event data rolled status |>.apply services e.before).files =
      (e.before.changeFiles [event.fileId] data.write data.write_id).files := rfl
    refine hChanged hFiles fun hMem => hApart (.inl ?_)
    rw [List.mem_singleton.mp hMem]
  | sweep batchId ids rolled status =>
    have hFiles : (Commit.sweep batchId ids rolled status |>.apply services e.before).files =
      (e.before.changeFiles ids fun f => { f with status := .expired }).files := rfl
    exact hChanged hFiles fun hMem => hApart (.inr ⟨id, hMem, rfl⟩)
  | purge ids =>
    rw [Commit.apply, Database.get_deleteBatches_files, hGet, Option.filter_some, if_pos]
    refine decide_eq_true fun hMem => hApart (.inr ⟨f, Table.mem_of_get hGet, hMem, ?_⟩)
    rw [Table.key_of_get hGet]
  | _ => exact hGet

theorem Commit.spares_batch {id : Uuid} {b : ConversionBatch} (hAllowed : c.Allowed services p e)
    (hGet : e.before.batches.get id = some b) (hApart : ¬ c.footprint p e (.batch id)) :
    (c.apply services e.before).batches.get id = some b := by
  have hChanged {ids : List Uuid} {g : ConversionBatch → ConversionBatch} {hKey : ∀ row,
    (g row).id = row.id}
      {db : Database} (hBatches : db.batches = (e.before.changeBatches ids g hKey).batches)
        (hMem : id ∉ ids) :
      db.batches.get id = some b := by
    rw [hBatches, Database.changeBatches_batches, Table.get_modify_of_not_mem hMem, hGet]
  cases c with
  | create input snapshot planCode drawn now =>
    rw [Commit.apply, Database.get_insertBatch_batches, hGet, Option.some_or]
  | admission a =>
    have hOwn : id ≠ a.batch.id := fun h => hApart (.inr (.inl (by rw [h])))
    have hRolled : id ∉ a.rolled := fun h => hApart (.inr (.inr (.inl ⟨id, h, rfl⟩)))
    rw [Commit.apply, Admission.get_write_batches, hGet, Option.map_some, if_neg hOwn,
      if_neg hRolled]
  | process ids => exact hChanged rfl fun hMem => hApart ⟨id, hMem, rfl⟩
  | finish event data rolled status =>
    refine hChanged rfl fun hMem => hApart (.inr ?_)
    rw [(hAllowed.2.2.2.1 id hMem).1]
  | sweep batchId ids rolled status =>
    refine hChanged rfl fun hMem => hApart (.inl ?_)
    rw [(hAllowed.2.1 id hMem).1]
  | purge ids =>
    rw [Commit.apply, Database.get_deleteBatches_batches, hGet, Option.filter_some, if_pos]
    exact decide_eq_true fun hMem => hApart (.inl ⟨id, hMem, rfl⟩)
  | _ => exact hGet

theorem Commit.passes_lock {f : ConversionFile} {b : ConversionBatch}
    (hAllowed : c.Allowed services p e) (hGet : e.before.files.get f.id = some f)
    (hBatch : e.before.batches.get f.batchId = some b)
    (hApart : ¬ c.footprint p e (.batch f.batchId)) :
    ∃ f', (c.apply services e.before).files.get f.id = some f' ∧ f'.batchId = f.batchId ∧
      PassesLock (e.endedAt ≤ b.createdAt + transactionTimeoutMs) f.status f'.status := by
  have hSame {db : Database} (hFiles : db.files.get f.id = some f) : ∃ f',
    db.files.get f.id = some f' ∧
      f'.batchId = f.batchId ∧
        PassesLock (e.endedAt ≤ b.createdAt + transactionTimeoutMs) f.status f'.status :=
    ⟨f, hFiles, rfl, .inl (.refl _)⟩
  have hChanged {ids : List Uuid} {g : ConversionFile → ConversionFile} {hKey : ∀ row,
    (g row).id = row.id}
      {db : Database} (hFiles : db.files = (e.before.changeFiles ids g hKey).files)
      (hBatchId : ∀ row, (g row).batchId = row.batchId)
        (hQuiet : f.id ∈ ids → Unnoticed f.status (g f).status) :
      ∃ f', db.files.get f.id = some f' ∧ f'.batchId = f.batchId ∧
        PassesLock (e.endedAt ≤ b.createdAt + transactionTimeoutMs) f.status f'.status := by
    rw [hFiles, Database.changeFiles_files, Table.get_modify, hGet, Option.map_some]
    refine ⟨_, rfl, ?_⟩
    split
    · next hMem => exact ⟨hBatchId f, .inl (hQuiet hMem)⟩
    · exact ⟨rfl, .inl (.refl _)⟩
  cases c with
  | create input snapshot planCode drawn now =>
    refine hSame ?_
    rw [Commit.apply, Database.get_insertBatch_files, hGet, Option.some_or]
  | verify ids stored =>
    refine hChanged rfl (fun _ => rfl) fun hMem => ?_
    obtain ⟨f', hGet', hStatus⟩ := hAllowed f.id hMem
    cases hGet.symm.trans hGet'
    exact .inr
      ⟨by rw [hStatus]; decide, (by decide : .ready ∉ terminalFileStatuses), fun _ => .inr rfl⟩
  | admission a =>
    have hOwn : f.batchId ≠ a.batch.id := fun h => hApart (.inr (.inl (by rw [h])))
    have hClaimed : f.id ∉ a.claimedIds := by
      intro hMem
      obtain ⟨c, hc, hId⟩ := List.mem_map.mp hMem
      obtain ⟨f', hGet', _, hBatchId, _⟩ := hAllowed.claimed c hc
      rw [hId] at hGet'
      cases hGet.symm.trans hGet'
      exact hOwn hBatchId
    rw [Commit.apply, Admission.get_not_claimed hClaimed, hGet, Option.map_some]
    refine ⟨_, rfl, ?_⟩
    split
    · next hEvicted =>
      obtain ⟨f', hGet', hCompleted, _⟩ := hAllowed.evicted f.id hEvicted
      cases hGet.symm.trans hGet'
      refine ⟨rfl, .inr ⟨hCompleted, rfl, ?_⟩⟩
      by_contra hOld
      exact hApart (.inr (.inr (.inr (.inl ⟨f.id, hEvicted, f, b, hGet, hBatch, by omega, rfl⟩))))
    · exact ⟨rfl, .inl (.refl _)⟩
  | start ids event startedAt =>
    refine hChanged rfl (fun _ => rfl) fun hMem => ?_
    obtain ⟨f', hGet', _, _, hAccepting, _⟩ := hAllowed.2.2 f.id hMem
    cases hGet.symm.trans hGet'
    refine .inr ⟨(ConversionFileStatus.accepting_moves hAccepting).2,
      (by decide : .processing ∉ terminalFileStatuses), ?_⟩
    rintro (hEarly | hEarly) <;> (rw [hEarly] at hAccepting; exact absurd hAccepting (by decide))
  | finish event data rolled status =>
    refine hSame (spares_file (p := p) hGet ?_)
    rintro (hFile | hFile)
    · obtain ⟨f', hGet', hBatchId, _⟩ := hAllowed.2.2.1
      rw [← Resource.file.inj hFile] at hGet'
      cases hGet.symm.trans hGet'
      exact hApart (.inr (by rw [hBatchId]))
    · cases hFile
  | sweep batchId ids rolled status =>
    refine hSame (spares_file (p := p) hGet ?_)
    rintro (hFile | ⟨id, hMem, hFile⟩)
    · cases hFile
    · obtain ⟨f', hGet', hBatchId, _⟩ := hAllowed.1 id hMem
      rw [← Resource.file.inj hFile] at hGet'
      cases hGet.symm.trans hGet'
      exact hApart (.inl (by rw [hBatchId]))
  | purge ids =>
    refine hSame ?_
    rw [Commit.apply, Database.get_deleteBatches_files, hGet, Option.filter_some, if_pos]
    exact decide_eq_true fun hMem => hApart (.inl ⟨f.batchId, hMem, rfl⟩)
  | nothing => exact hSame hGet
  | process ids => exact hSame hGet
  | purgeUsage keys => exact hSame hGet
  | publish deliveredIds failedIds now => exact hSame hGet

theorem Commit.spares_usage {key : String × Nat} (hApart : ¬ c.footprint p e (.usage key)) :
    (c.apply services e.before).usage.get key = e.before.usage.get key := by
  cases c with
  | admission a =>
    rw [Commit.apply, Admission.write_usage, Admission.charge]
    split
    · next dailyFiles hDaily =>
      have hOther : (a.batch.subject, dayOf a.startedAt) ≠ key := by
        intro hKey
        exact hApart (.inr (.inr (.inr (.inr (.inr ⟨by rw [hDaily]; simp, by rw [hKey]⟩)))))
      unfold Database.reserve
      dsimp only
      split
      · rw [Table.get_insert, if_neg (by simpa [DailyUsage.key] using hOther), Option.or_none]
      · exact Table.get_modify_of_not_mem (by simpa using hOther.symm)
    · rfl
  | purgeUsage keys =>
    exact Database.get_deleteUsage fun hMem => hApart ⟨key, hMem, rfl⟩
  | _ => rfl

theorem Commit.spares_outbox {id : Nat} {event : OutboxEvent}
    (hGet : e.before.outbox.get id = some event)
    (hNumbered : ∀ event ∈ e.before.outbox.rows, event.id < e.before.outboxSeq)
    (hApart : ¬ c.footprint p e (.outbox id)) :
    (c.apply services e.before).outbox.get id = some event := by
  cases c with
  | admission a =>
    rw [Table.get_eq_some_iff, Commit.apply, Admission.write_outbox hNumbered]
    exact ⟨List.mem_append_left _ (Table.mem_of_get hGet), Table.key_of_get hGet⟩
  | publish deliveredIds failedIds now =>
    have hFailed : id ∉ failedIds := fun hMem => hApart ⟨id, .inr hMem, rfl⟩
    have hDelivered : id ∉ deliveredIds := fun hMem => hApart ⟨id, .inl hMem, rfl⟩
    rw [Commit.apply, Database.get_backOffFailed, Database.get_deleteDelivered, hGet,
      Option.filter_some, if_pos (decide_eq_true hDelivered), Option.map_some, if_neg hFailed]
  | _ => exact hGet

/-! ## Storage -/

/-- Results that the subject's workers report are no larger than the inputs. -/
def AcceptsSmallOutputs (subject : String) (e : LogEntry) : Prop :=
  ∀ f f', e.before.files.get f.id = some f → e.before.subjectOf f = some subject →
    e.after.files.get f.id = some f' → f.status ∈ eventAcceptingFileStatuses →
      f'.status = .completed →
    f'.outputBytes.getD 0 ≤ f.inputBytes.getD 0

/-- What a file adds to the storage of a subject. -/
def Database.storedBytes (db : Database) (subject : String) (t : Nat) (f : ConversionFile) : Nat :=
  if db.stored subject t f then f.storedBytes else 0

theorem Database.storageUsed_eq {db : Database} {subject : String} {t : Nat} :
    db.storageUsed subject t = db.files.total (db.storedBytes subject t) := rfl

theorem Database.storedBytes_of_subject {db : Database} {subject : String} {t : Nat}
    {f : ConversionFile} (h : db.subjectOf f ≠ some subject) : db.storedBytes subject t f = 0 := by
  simp [storedBytes, stored, h]

theorem Database.storedBytes_of_accepting {db : Database} {subject : String} {t : Nat}
    {f : ConversionFile} (hSubject : db.subjectOf f = some subject)
    (hAccepting : f.status ∈ eventAcceptingFileStatuses) :
    db.storedBytes subject t f = if t < f.expiresAt then f.inputBytes.getD 0 else 0 := by
  rcases List.mem_pair.mp hAccepting with hStatus | hStatus <;>
    simp [storedBytes, stored, ConversionFile.storedBytes, hSubject, hStatus]

theorem Database.storedBytes_of_completed {db : Database} {subject : String} {t : Nat}
    {f : ConversionFile} (hSubject : db.subjectOf f = some subject)
    (hStatus : f.status = .completed) :
    db.storedBytes subject t f = if t < f.expiresAt then f.outputBytes.getD 0 else 0 := by
  simp [storedBytes, stored, ConversionFile.storedBytes, hSubject, hStatus]

theorem Database.storedBytes_of_other {db : Database} {subject : String} {t : Nat}
    {f : ConversionFile} (hStatus : f.status ∉ [.queued, .processing, .completed]) :
    db.storedBytes subject t f = 0 := by
  simp only [List.mem_cons, List.not_mem_nil, or_false, not_or] at hStatus
  simp [storedBytes, stored, hStatus]

theorem Database.storedBytes_congr {db db' : Database} {subject : String} {t : Nat}
    {f : ConversionFile} (h : db'.subjectOf f = db.subjectOf f) :
    db'.storedBytes subject t f = db.storedBytes subject t f := by
  unfold storedBytes stored
  rw [h]

theorem Database.subjectOf_congr {db db' : Database} {f f' : ConversionFile}
    (hBatch : f'.batchId = f.batchId)
    (h : (db'.batches.get f.batchId).map ConversionBatch.subject =
      (db.batches.get f.batchId).map ConversionBatch.subject) :
    db'.subjectOf f' = db.subjectOf f := by
  unfold subjectOf
  rw [hBatch, h]

theorem map_subject_modify {t : Table ConversionBatch.id} {ids : List Uuid}
    {g : ConversionBatch → ConversionBatch} {h : ∀ row, (g row).id = row.id}
    (hSubject : ∀ row, (g row).subject = row.subject) (id : Uuid) :
    ((t.modify ids g h).get id).map ConversionBatch.subject =
      (t.get id).map ConversionBatch.subject := by
  rw [Table.get_modify, Option.map_map]
  congr 1
  funext row
  simp only [Function.comp]
  split
  · exact hSubject row
  · rfl

theorem subjects_changeBatches {db db' : Database} {ids : List Uuid}
    {g : ConversionBatch → ConversionBatch} {h : ∀ row, (g row).id = row.id}
    (hSubject : ∀ row, (g row).subject = row.subject)
    (hBatches : db'.batches = (db.changeBatches ids g h).batches) (id : Uuid) :
    (db'.batches.get id).map ConversionBatch.subject =
      (db.batches.get id).map ConversionBatch.subject := by
  rw [hBatches, Database.changeBatches_batches, map_subject_modify hSubject]

theorem storageUsed_changeFiles_le {db db' : Database} {subject : String} {t : Nat}
    {ids : List Uuid} {g : ConversionFile → ConversionFile} {h : ∀ row, (g row).id = row.id}
    (hFiles : db'.files = (db.changeFiles ids g h).files)
    (hSubjects : ∀ id, (db'.batches.get id).map ConversionBatch.subject =
      (db.batches.get id).map ConversionBatch.subject)
    (hBatchId : ∀ row, (g row).batchId = row.batchId)
    (hLess : ∀ id ∈ ids, ∀ f, db.files.get id = some f → db.subjectOf f = some subject →
      db.storedBytes subject t (g f) ≤ db.storedBytes subject t f) :
    db'.storageUsed subject t ≤ db.storageUsed subject t := by
  rw [Database.storageUsed_eq, Database.storageUsed_eq, hFiles, Database.changeFiles_files,
    Table.total_modify]
  refine Table.total_le_total fun f hf => ?_
  have hSame : db'.subjectOf f = db.subjectOf f := Database.subjectOf_congr rfl (hSubjects _)
  have hSameG : db.subjectOf (g f) = db.subjectOf f := Database.subjectOf_congr (hBatchId f) rfl
  have hSameG' : db'.subjectOf (g f) = db.subjectOf (g f) := by
    rw [hSameG]
    exact Database.subjectOf_congr (hBatchId f) (hSubjects _)
  split
  · next hMem =>
    rw [Database.storedBytes_congr hSameG']
    by_cases hSubject : db.subjectOf f = some subject
    · exact hLess f.id hMem f (Table.get_of_mem hf) hSubject
    · rw [Database.storedBytes_of_subject (by rwa [hSameG])]
      exact Nat.zero_le _
  · exact (Database.storedBytes_congr hSame).le

theorem Admission.subjectOf_claimed {a : Admission} (hAllowed : a.Allowed services p e)
    {f : ConversionFile} (hBatchId : f.batchId = a.batch.id) :
    e.before.subjectOf f = some a.batch.subject := by
  obtain ⟨b, hb, hStep, _⟩ := hAllowed.batch
  rw [Database.subjectOf, hBatchId, hb, Option.map_some, hStep.subject]

theorem Admission.storage_le_of_other {a : Admission} (hAllowed : a.Allowed services p e)
    {subject : String} (hOther : a.batch.subject ≠ subject) (t : Nat) :
    (a.write services e.before).storageUsed subject t ≤ e.before.storageUsed subject t := by
  have hEvicted : (a.evict e.before).storageUsed subject t ≤ e.before.storageUsed subject t := by
    refine storageUsed_changeFiles_le rfl (fun _ => rfl)
      (fun _ => rfl) fun id hMem f hGet hSubject => ?_
    obtain ⟨f', hGet', _, hOwner, _⟩ := hAllowed.evicted id hMem
    cases hGet.symm.trans hGet'
    exact absurd (Option.some.inj (hOwner.symm.trans hSubject)) hOther
  refine le_trans ?_ hEvicted
  refine storageUsed_changeFiles_le write_files ?_ (fun _ => rfl) fun id hMem f hGet hSubject => ?_
  · intro id
    rw [write_batches, queueBatch, rollUp, Database.changeBatches_batches,
      map_subject_modify (fun _ => by rfl), Database.changeBatches_batches,
      map_subject_modify (fun _ => by rfl)]
    rfl
  · obtain ⟨c, hc, rfl⟩ := List.mem_map.mp hMem
    obtain ⟨f', hGet', _, hBatchId, _⟩ := hAllowed.claimed c hc
    have hNot : c.id ∉ a.evicted := hAllowed.apart hMem
    rw [evict, Database.changeFiles_files, Table.get_modify_of_not_mem hNot] at hGet
    cases hGet.symm.trans hGet'
    have hOwner := Admission.subjectOf_claimed hAllowed hBatchId
    exact absurd (Option.some.inj (hOwner.symm.trans hSubject)) hOther

theorem Commit.storage_le {subject : String} {t t₀ : Nat} (hCons : Consistent e.before t₀)
    (hAllowed : c.Allowed services p e) (hApply : e.after = c.apply services e.before)
    (hSmall : AcceptsSmallOutputs subject e)
    (hOther : ∀ a, c = .admission a → a.batch.subject ≠ subject) :
    (c.apply services e.before).storageUsed subject t ≤ e.before.storageUsed subject t := by
  cases c with
  | admission a => exact Admission.storage_le_of_other hAllowed (hOther a rfl) t
  | create input snapshot planCode drawn now =>
    have hSubject : ∀ f ∈ e.before.files.rows,
        ((Commit.create input snapshot planCode drawn now).apply services e.before).subjectOf f =
          e.before.subjectOf f := by
      intro f hf
      obtain ⟨b, hb⟩ := hCons.owned f hf
      refine Database.subjectOf_congr rfl ?_
      rw [Commit.apply, Database.get_insertBatch_batches, hb, Option.some_or]
    rw [Database.storageUsed_eq, Database.storageUsed_eq, Commit.apply]
    refine le_of_eq ?_
    refine (Table.total_insertAll fun f hf => ?_).trans (Table.total_congr fun f hf => ?_)
    · obtain ⟨fileId, _, rfl⟩ := List.mem_map.mp hf
      simp [Database.storedBytes, Database.stored, newFile]
    · exact Database.storedBytes_congr (hSubject f hf)
  | verify ids stored =>
    refine storageUsed_changeFiles_le rfl (fun _ => rfl) (fun _ => rfl) fun id _ f _ _ => ?_
    rw [Database.storedBytes_of_other (by simp)]
    exact Nat.zero_le _
  | start ids event startedAt =>
    refine storageUsed_changeFiles_le rfl (fun _ => rfl)
      (fun _ => rfl) fun id hMem f hGet hSubject => ?_
    obtain ⟨f', hGet', _, _, hAccepting, _⟩ := hAllowed.2.2 id hMem
    cases hGet.symm.trans hGet'
    rw [Database.storedBytes_of_accepting hSubject hAccepting, Database.storedBytes_of_accepting]
    · exact hSubject
    · exact (by decide : .processing ∈ eventAcceptingFileStatuses)
  | finish event data rolled status =>
    have hFiles : (Commit.finish event data rolled status |>.apply services e.before).files =
      (e.before.changeFiles [event.fileId] data.write data.write_id).files := rfl
    have hBatches : (Commit.finish event data rolled status |>.apply services e.before).batches =
      (e.before.changeBatches rolled fun b => { b with status := status }).batches := rfl
    refine storageUsed_changeFiles_le hFiles (subjects_changeBatches (fun _ => by rfl) hBatches)
      data.write_batchId
      fun id hMem f hGet hSubject => ?_
    obtain ⟨f', hGet', _, hAccepting, _⟩ := hAllowed.2.2.1
    rw [List.mem_singleton] at hMem
    subst hMem
    cases hGet.symm.trans hGet'
    have hKey := Table.key_of_get hGet
    have hAfter : e.after.files.get f.id = some (data.write f) := by
      rw [hApply, hFiles, Database.changeFiles_files, hKey, Table.get_modify_of_mem (by simp), hGet,
        Option.map_some]
    have hLess := hSmall f (data.write f) (by rw [hKey, hGet]) hSubject hAfter hAccepting
    rw [Database.storedBytes_of_accepting hSubject hAccepting]
    cases data with
    | failed failureCode completedAt =>
      rw [Database.storedBytes_of_other (by simp [FileResult.write])]
      exact Nat.zero_le _
    | completed result completedAt =>
      rw [Database.storedBytes_of_completed]
      · have hBytes : result.outputBytes ≤ f.inputBytes.getD 0 := hLess rfl
        by_cases hTime : t < f.expiresAt <;> simp [FileResult.write, hTime, hBytes]
      · exact hSubject
      · rfl
  | process ids =>
    have hBatches : (Commit.process ids |>.apply services e.before).batches =
      (e.before.changeBatches ids fun b => { b with status := .processing }).batches := rfl
    refine Table.total_le_total fun f _ => le_of_eq (Database.storedBytes_congr ?_)
    exact Database.subjectOf_congr rfl (subjects_changeBatches (fun _ => by rfl) hBatches _)
  | sweep batchId ids rolled status =>
    have hFiles : (Commit.sweep batchId ids rolled status |>.apply services e.before).files =
      (e.before.changeFiles ids fun f => { f with status := .expired }).files := rfl
    have hBatches : (Commit.sweep batchId ids rolled status |>.apply services e.before).batches =
      (e.before.changeBatches rolled fun b => { b with status := status }).batches := rfl
    refine storageUsed_changeFiles_le hFiles (subjects_changeBatches (fun _ => by rfl) hBatches)
      (fun _ => rfl) fun id _ f _ _ => ?_
    rw [Database.storedBytes_of_other (by simp)]
    exact Nat.zero_le _
  | purge ids =>
    rw [Database.storageUsed_eq, Database.storageUsed_eq, Commit.apply]
    refine le_trans (Table.total_le_total fun f hf => le_of_eq ?_) Table.total_delete_le
    refine Database.storedBytes_congr (Database.subjectOf_congr rfl ?_)
    have hGet := Table.get_of_mem hf
    rw [Database.get_deleteBatches_files, Option.filter_eq_some_iff] at hGet
    rw [Database.get_deleteBatches_batches]
    congr 1
    cases e.before.batches.get f.batchId with
    | none => rfl
    | some b => rw [Option.filter_some, if_pos hGet.2]
  | nothing => exact le_rfl
  | purgeUsage keys => exact le_rfl
  | publish deliveredIds failedIds now => exact le_rfl

/-! ## Expiry -/

/-- A file expires because it is overdue, or because an admission evicts it. -/
theorem Commit.expired_by {f f' : ConversionFile} (hAllowed : c.Allowed services p e)
    (hGet : e.before.files.get f.id = some f)
    (hGet' : (c.apply services e.before).files.get f.id = some f') (hStatus : f.status ≠ .expired)
    (hExpired : f'.status = .expired) :
    (∃ a, c = .admission a ∧ f.id ∈ a.evicted) ∨ f.status ∈ liveFileStatuses ∧
    f.expiresAt ≤ e.endedAt := by
  cases c.changes hAllowed hGet hGet' with
  | evict hEvicted => exact .inl ⟨_, rfl, hEvicted⟩
  | sweep hMem =>
    obtain ⟨row, hRow, _, hLive, hOverdue⟩ := hAllowed.1 f.id hMem
    cases hGet.symm.trans hRow
    exact .inr ⟨hLive, hOverdue⟩
  | same => exact absurd hExpired hStatus
  | @finish _ data =>
    cases data <;> cases hExpired
  | _ => cases hExpired

/-! ## Every lock outside the footprint -/

/-- What the policy assumes of the entries of a run. -/
structure Policy.Assumes (p : Policy) (e : LogEntry) : Prop where
  cap : ∀ subject cap, p.cap subject = some cap →
    (∀ batchId ownership snapshot, e.call.admission = some (batchId, ownership, snapshot) →
      ownership.subject = subject → snapshot.storageBytes = some cap) ∧
        AcceptsSmallOutputs subject e
  clean : p.clean = true → ∀ rounds, e.call = .drain rounds → e.error ≠ none → .ok ∉ e.answers

theorem Commit.respects {r : Resource} (hCons : Consistent e.before e.endedAt)
    (hAllowed : c.Allowed services p e) (hApply : e.after = c.apply services e.before)
    (hAssumes : p.Assumes e) (hApart : ¬ c.footprint p e r) :
    Respects p r e := by
  cases r with
  | file id =>
    intro f hGet
    rw [hApply]
    exact spares_file hGet hApart
  | batch id =>
    intro b hGet
    refine ⟨by rw [hApply]; exact spares_batch hAllowed hGet hApart, ?_, ?_⟩
    · rintro f hf rfl
      obtain ⟨f', hGet', hBatchId, hPasses⟩ :=
        passes_lock hAllowed (Table.get_of_mem hf) hGet hApart
      exact ⟨f', by rw [hApply, hGet'], hBatchId, hPasses⟩
    · intro f' hf' hBatchId
      have hGet' := Table.get_of_mem hf'
      rw [hApply] at hGet'
      cases hBefore : e.before.files.get f'.id with
      | some f =>
        refine ⟨f, rfl, ?_⟩
        rcases c.fileAfter hAllowed ((Table.key_of_get hBefore).symm ▸ hBefore)
          with ⟨f'', hGet'', hStep⟩ | ⟨hGone, _⟩
        · rw [Table.key_of_get hBefore] at hGet''
          cases hGet'.symm.trans hGet''
          rw [← hStep.batchId, hBatchId]
        · rw [Table.key_of_get hBefore] at hGone
          cases hGet'.symm.trans hGone
      | none =>
        cases c with
        | create input snapshot planCode drawn now =>
          rw [Commit.apply, Database.get_insertBatch_files, hBefore, Option.none_or] at hGet'
          obtain ⟨fileId, _, rfl⟩ := List.mem_map.mp (List.mem_of_find?_eq_some hGet')
          have hFresh := hCons.fresh_batch hAllowed
          rw [show drawn.batchId = id from hBatchId, hGet] at hFresh
          cases hFresh
        | purge ids => simp [Commit.apply, Database.get_deleteBatches_files, hBefore] at hGet'
        | admission a => simp [Commit.apply, Admission.get_write_files, hBefore] at hGet'
        | _ => simp [Commit.apply, Table.get_modify, hBefore] at hGet'
  | usage key =>
    change e.after.usage.get key = e.before.usage.get key
    rw [hApply]
    exact spares_usage hApart
  | outbox id =>
    intro event hGet
    rw [hApply]
    exact spares_outbox hGet hCons.numbered hApart
  | subject subject =>
    have hOther : ∀ a, c = .admission a → a.evicted ≠ [] ∨ p.cap a.batch.subject ≠ none →
      a.batch.subject ≠ subject := by
      rintro a rfl hTouches rfl
      exact hApart (.inr (.inr (.inr (.inr (.inl ⟨hTouches, rfl⟩)))))
    constructor
    · intro f f' hGet hSubject hStatus hGet' hExpired
      rw [hApply] at hGet'
      rcases expired_by hAllowed hGet hGet' hStatus hExpired with ⟨a, rfl, hEvicted⟩ |
        ⟨hLive, hOverdue⟩
      · obtain ⟨row, hRow, _, hOwner, _⟩ := Admission.Allowed.evicted hAllowed f.id hEvicted
        cases hGet.symm.trans hRow
        exact absurd (Option.some.inj (hOwner.symm.trans hSubject))
          (hOther a rfl (.inl (List.ne_nil_of_mem hEvicted)))
      · obtain ⟨b, hb⟩ := hCons.owned f (Table.mem_of_get hGet)
        exact ⟨b, hb, (hCons.lasting f (Table.mem_of_get hGet) hLive b hb).trans hOverdue⟩
    · intro hCapped t
      obtain ⟨cap, hCap⟩ := Option.ne_none_iff_exists'.mp hCapped
      rw [hApply]
      refine storage_le hCons hAllowed hApply (hAssumes.cap subject cap hCap).2
        fun a hAdmit hSubject => ?_
      exact hOther a hAdmit (.inr (hSubject ▸ hCapped)) hSubject

end Pixaeron.Conversion
