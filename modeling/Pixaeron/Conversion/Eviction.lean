import Pixaeron.Conversion.Agreement

/-! # Eviction

How far the eviction loop goes, what an admission that evicts does to the storage of its subject,
and when the batches of the evicted results still agree with their files.
-/

namespace Pixaeron.Conversion

open Transactions

def EvictionCandidate.size (c : EvictionCandidate) : Nat := c.bytes.getD 0

def freed (candidates : List EvictionCandidate) : Nat := (candidates.map EvictionCandidate.size).sum

section Loop

variable {deficit : Int} {candidates : List EvictionCandidate}

theorem evictWhile_of_nonpos (h : deficit ≤ 0) : evictWhile deficit candidates = ([], deficit) := by
  cases candidates with
  | nil => rfl
  | cons c rest => simp [evictWhile, h]

theorem evictWhile_cons {c : EvictionCandidate} {rest : List EvictionCandidate} (h : 0 < deficit) :
    evictWhile deficit (c :: rest) =
      (c :: (evictWhile (deficit - c.size) rest).1, (evictWhile (deficit - c.size) rest).2) := by
  rw [evictWhile, if_neg (not_le.mpr h)]
  rfl

theorem evictWhile_prefix : (evictWhile deficit candidates).1 <+: candidates := by
  induction candidates generalizing deficit with
  | nil => exact List.prefix_rfl
  | cons c rest ih =>
    by_cases h : 0 < deficit
    · rw [evictWhile_cons h]
      exact (List.prefix_cons_inj c).mpr ih
    · rw [evictWhile_of_nonpos (not_lt.mp h)]
      exact List.nil_prefix

theorem evictWhile_left :
    (evictWhile deficit candidates).2 = deficit - freed (evictWhile deficit candidates).1 := by
  induction candidates generalizing deficit with
  | nil => simp [evictWhile, freed]
  | cons c rest ih =>
    by_cases h : 0 < deficit
    · rw [evictWhile_cons h]
      dsimp only
      rw [ih, freed, freed, List.map_cons, List.sum_cons]
      omega
    · rw [evictWhile_of_nonpos (not_lt.mp h)]
      simp [freed]

end Loop

theorem nodup_eraseDups {α : Type} [DecidableEq α] : ∀ l : List α, l.eraseDups.Nodup
  | [] => List.nodup_nil
  | a :: rest => by
    rw [List.eraseDups_cons, List.nodup_cons]
    refine ⟨?_, nodup_eraseDups _⟩
    simp [List.mem_eraseDups]
termination_by l => l.length
decreasing_by exact Nat.lt_succ_of_le (List.length_filter_le _ _)

/-! ## The candidates of an admission -/

/-- The evicted results as an admission has them locked, and what keeps their batches from
expiring: the lock, or their youth. -/
structure Victims (subject : String) (startedAt : Nat) (evicted : List EvictionCandidate)
    (held : Resource → Prop) (db : Database) : Prop where
  found : ∀ c ∈ evicted, held (.file c.id) ∧ ∃ f, db.files.get c.id = some f ∧ f.candidate = c ∧
    f.status = .completed ∧ db.subjectOf f = some subject ∧ startedAt < f.expiresAt
  distinct : (evicted.map EvictionCandidate.id).Nodup
  guarded : ∀ c ∈ evicted, ∀ b, db.batches.get c.batchId = some b →
    held (.batch c.batchId) ∨ startedAt ≤ b.createdAt

def AllGone (evicted : List Uuid) (batchId : Uuid) (db : Database) : Prop :=
  ∀ f ∈ db.files.rows, f.batchId = batchId → f.id ∈ evicted ∨ f.status = .expired

def SomeStays (evicted : List Uuid) (batchId : Uuid) (db : Database) : Prop :=
  ∃ f ∈ db.files.rows, f.batchId = batchId ∧ f.id ∉ evicted ∧ f.status ≠ .expired

/-- An evicted batch is rolled up if, and only if, nothing is left of it. -/
def BatchSettled (evicted rolled : List Uuid) (batchId : Uuid) (db : Database) : Prop :=
  batchId ∈ rolled ∧ AllGone evicted batchId db ∨ batchId ∉ rolled ∧ SomeStays evicted batchId db

theorem mem_evictable {db : Database} {subject : String} {now : Nat} {f : ConversionFile} :
    f ∈ db.evictable subject now ↔
      f ∈ db.files.rows ∧ db.subjectOf f = some subject ∧ f.status = .completed ∧
      now < f.expiresAt := by
  simp [Database.evictable, and_assoc]

theorem evictable_nodup {db : Database} {subject : String} {now : Nat} :
    ((db.evictable subject now).map ConversionFile.id).Nodup := by
  refine (orderBy_perm.map ConversionFile.id).nodup_iff.mpr ?_
  exact db.files.nodup.sublist (List.filter_sublist.map _)

theorem victims_of_evictable {db : Database} {subject : String} {t : Nat}
    {evicted : List EvictionCandidate} {held : Resource → Prop}
    (hPrefix : evicted <+: (db.evictable subject t).map ConversionFile.candidate)
    (hHeld : ∀ f ∈ db.evictable subject t, held (.file f.id))
    (hGuarded : ∀ f ∈ db.evictable subject t, ∀ b, db.batches.get f.batchId = some b →
      held (.batch f.batchId) ∨ t ≤ b.createdAt) : Victims subject t evicted held db where
  found c hc := by
    obtain ⟨f, hf, rfl⟩ := List.mem_map.mp (hPrefix.subset hc)
    obtain ⟨hRow, hSubject, hCompleted, hLater⟩ := mem_evictable.mp hf
    exact ⟨hHeld f hf, f, Table.get_of_mem hRow, rfl, hCompleted, hSubject, hLater⟩
  distinct := by
    have hIds : ((db.evictable subject t).map ConversionFile.candidate).map EvictionCandidate.id =
        (db.evictable subject t).map ConversionFile.id := by
      rw [List.map_map]
      rfl
    exact (hIds ▸ evictable_nodup).sublist (hPrefix.sublist.map _)
  guarded c hc := by
    obtain ⟨f, hf, rfl⟩ := List.mem_map.mp (hPrefix.subset hc)
    exact hGuarded f hf

theorem victims_nil {db : Database} {subject : String} {t : Nat} {held : Resource → Prop} :
    Victims subject t [] held db :=
  ⟨fun _ hc => (by cases hc), List.nodup_nil, fun _ hc => (by cases hc)⟩

section Write

variable {services : Services} {a : Admission} {db : Database} {id : Uuid}

/-- An admission leaves the files of other batches alone, but for those it evicts. -/
theorem Admission.mem_statuses_write (hClaimed : ∀ k ∈ a.claimedIds, ∀ f,
      db.files.get k = some f → f.batchId ≠ id) {st : ConversionFileStatus} :
    st ∈ (a.write services db).statuses id ↔
      ∃ f ∈ db.files.rows, f.batchId = id ∧
        (if f.id ∈ a.evicted then .expired else f.status) = st := by
  have hAfter : ∀ f ∈ db.files.rows, f.batchId = id → (a.write services db).files.get f.id =
      some (if f.id ∈ a.evicted then f.expireAt a.evictedAt else f) := by
    intro f hf hId
    have hNot : f.id ∉ a.claimedIds := fun hMem => hClaimed f.id hMem f (Table.get_of_mem hf) hId
    rw [get_not_claimed hNot, Table.get_of_mem hf, Option.map_some]
  rw [mem_statuses]
  constructor
  · rintro ⟨f', hf', hId, rfl⟩
    have hGet' := Table.get_of_mem hf'
    rw [get_write_files] at hGet'
    obtain ⟨f, hGet, hEq⟩ := Option.map_eq_some_iff.mp hGet'
    have hKey := Table.key_of_get hGet
    have hBatchId : f.batchId = id := by
      rw [← hId, ← hEq]
      split <;> split <;> rfl
    have hGet' := hAfter f (Table.mem_of_get hGet) hBatchId
    rw [hKey, Table.get_of_mem hf', Option.some.injEq] at hGet'
    refine ⟨f, Table.mem_of_get hGet, hBatchId, ?_⟩
    rw [hGet', hKey]
    split <;> rfl
  · rintro ⟨f, hf, hId, rfl⟩
    refine ⟨_, Table.mem_of_get (hAfter f hf hId), ?_, ?_⟩ <;> split <;> first | exact hId | rfl

theorem Admission.agrees_evicted {now : Nat} (hCons : Consistent db now) (hOther : id ≠ a.batch.id)
    (hClaimed : ∀ k ∈ a.claimedIds, ∀ f, db.files.get k = some f → f.batchId ≠ id)
    (hEvicted : ∀ k ∈ a.evicted, ∃ f, db.files.get k = some f ∧ f.status = .completed)
    (hSettled : BatchSettled a.evicted a.rolled id db) : (a.write services db).AgreesOn id := by
  intro b' hb'
  rw [get_write_batches] at hb'
  obtain ⟨b, hb, hEq⟩ := Option.map_eq_some_iff.mp hb'
  rw [if_neg hOther] at hEq
  have hAgrees := hCons.agrees id b hb
  rcases hSettled with ⟨hRolled, hGone⟩ | ⟨hNotRolled, w, hw, hId, hKept, hStays⟩
  · rw [if_pos hRolled] at hEq
    rw [← hEq]
    have hAll : ∀ st ∈ (a.write services db).statuses id, st = .expired := by
      intro st hSt
      obtain ⟨f, hf, hBatchId, rfl⟩ := (mem_statuses_write hClaimed).mp hSt
      split
      · rfl
      · next hNot => exact (hGone f hf hBatchId).resolve_left hNot
    have hSome : (a.write services db).statuses id ≠ [] := by
      obtain ⟨f, hf, hBatchId⟩ := hCons.peopled b (Table.mem_of_get hb)
      rw [Table.key_of_get hb] at hBatchId
      exact List.ne_nil_of_mem ((mem_statuses_write hClaimed).mpr ⟨f, hf, hBatchId, rfl⟩)
    have hRolledUp := agrees_rolledStatus hSome fun st hSt => by rw [hAll st hSt]; decide
    rwa [rolledStatus_expired.mpr hAll] at hRolledUp
  · rw [if_neg hNotRolled] at hEq
    rw [← hEq]
    have hStep : ∀ f ∈ db.files.rows, (if f.id ∈ a.evicted then .expired else f.status) = f.status ∨
        f.status = .completed ∧ (if f.id ∈ a.evicted then .expired else f.status) =
          ConversionFileStatus.expired := by
      intro f hf
      split
      · next hMem =>
        obtain ⟨f', hGet', hCompleted⟩ := hEvicted f.id hMem
        cases (Table.get_of_mem hf).symm.trans hGet'
        exact .inr ⟨hCompleted, rfl⟩
      · exact .inl rfl
    refine hAgrees.evicted ⟨fun st hSt => ?_, fun st' hSt' => ?_⟩ ⟨w.status, ?_, hStays⟩
    · obtain ⟨f, hf, hBatchId, rfl⟩ := mem_statuses.mp hSt
      exact ⟨_, (mem_statuses_write hClaimed).mpr ⟨f, hf, hBatchId, rfl⟩, hStep f hf⟩
    · obtain ⟨f, hf, hBatchId, rfl⟩ := (mem_statuses_write hClaimed).mp hSt'
      exact ⟨_, mem_statuses.mpr ⟨f, hf, hBatchId, rfl⟩, hStep f hf⟩
    · exact (mem_statuses_write hClaimed).mpr ⟨w, hw, hId, if_neg hKept⟩

theorem Admission.storage_write (services : Services) {held : Resource → Prop}
    {evicted : List EvictionCandidate} {t : Nat}
    (hVictims : Victims a.batch.subject t evicted held db)
    (hEvicted : a.evicted = evicted.map EvictionCandidate.id) (hDistinct : a.claimedIds.Nodup)
    (hClaimed : ∀ c ∈ a.claimed, ∃ f, db.files.get c.id = some f ∧ f.status = .ready ∧
      f.claimed = c) :
    (a.write services db).storageUsed a.batch.subject t + freed evicted ≤
      db.storageUsed a.batch.subject t + (a.claimed.map fun c => c.inputBytes.getD 0).sum := by
  have hSubjects : ∀ f : ConversionFile, (a.write services db).subjectOf f = db.subjectOf f := by
    intro f
    refine Database.subjectOf_congr rfl ?_
    rw [write_batches, queueBatch, rollUp, Database.changeBatches_batches,
      map_subject_modify (fun _ => by rfl), Database.changeBatches_batches,
      map_subject_modify (fun _ => by rfl)]
  have hFreed : (db.files.total fun f => if f.id ∈ a.evicted then f.outputBytes.getD 0 else 0) =
    freed evicted := by
    rw [hEvicted, Table.total_of_keys hVictims.distinct, List.map_map, freed]
    refine congrArg List.sum (List.map_congr_left fun c hc => ?_)
    obtain ⟨_, f, hGet, rfl, _⟩ := hVictims.found c hc
    simp only [Function.comp_apply, hGet, Option.map_some, Option.getD_some]
    rfl
  have hIncoming : (db.files.total fun f => if f.id ∈ a.claimedIds then
    f.inputBytes.getD 0 else 0) =
      (a.claimed.map fun c => c.inputBytes.getD 0).sum := by
    rw [Table.total_of_keys hDistinct, claimedIds, List.map_map]
    refine congrArg List.sum (List.map_congr_left fun c hc => ?_)
    obtain ⟨f, hGet, _, rfl⟩ := hClaimed c hc
    simp only [Function.comp_apply, hGet, Option.map_some, Option.getD_some]
    rfl
  rw [Database.storageUsed_eq, Database.storageUsed_eq, write_files, queueFiles, evict,
    Database.changeFiles_files, Database.changeFiles_files, Table.total_modify, Table.total_modify,
    ← hFreed, ← hIncoming, ← Table.total_add, ← Table.total_add]
  refine Table.total_le_total fun f hf => ?_
  by_cases hGone : f.id ∈ a.evicted
  · obtain ⟨c, hc, hId⟩ := List.mem_map.mp (hEvicted ▸ hGone)
    obtain ⟨_, f', hGet, _, hCompleted, hSubject, hLater⟩ := hVictims.found c hc
    rw [hId, Table.get_of_mem hf] at hGet
    cases hGet
    have hNot : f.id ∉ a.claimedIds := by
      intro hMem
      obtain ⟨k, hk, hKey⟩ := List.mem_map.mp hMem
      obtain ⟨f', hGet', hReady, _⟩ := hClaimed k hk
      rw [hKey, Table.get_of_mem hf] at hGet'
      cases hGet'
      rw [hReady] at hCompleted
      cases hCompleted
    rw [Database.storedBytes_of_completed hSubject hCompleted, if_pos hLater]
    simp only [hGone, hNot, if_true, if_false]
    rw [Database.storedBytes_of_other (by simp)]
    omega
  · by_cases hIn : f.id ∈ a.claimedIds
    · simp only [hGone, hIn, if_true, if_false]
      have hBound : (a.write services db).storedBytes a.batch.subject t
          { f with status := .queued, expiresAt := a.retentionExpiresAt } ≤
            f.inputBytes.getD 0 := by
        unfold Database.storedBytes ConversionFile.storedBytes
        split
        · exact le_of_eq (if_neg (by simp))
        · exact Nat.zero_le _
      omega
    · simp only [hGone, hIn, if_false]
      rw [Database.storedBytes_congr (hSubjects f)]

end Write

/-! ## What the storage check has seen -/

def sawIn (reads : List (Statement × Database)) (name : Statement) : Option Database :=
  (reads.find? (·.1 = name)).map (·.2)

theorem sawIn_append {reads : List (Statement × Database)} {statement name : Statement}
    {db : Database} :
    sawIn (reads ++ [(statement, db)]) name =
      (sawIn reads name).or (if statement = name then some db else none) := by
  unfold sawIn
  rw [List.find?_append]
  cases reads.find? (·.1 = name) with
  | some read => rfl
  | none =>
    by_cases hName : statement = name <;> simp [hName]

/-- The reads of an admission up to its storage check: what it has measured, and whom it evicts
or whether it refuses. -/
def StorageSeen (batch : ConversionBatch) (snapshot : EntitlementSnapshot) (startedAt : Nat)
    (reads : List (Statement × Database)) (evicted : List EvictionCandidate)
    (refused : Prop) : Prop :=
  (sawIn reads .storageUsed = none → ¬ refused ∧ evicted = [] ∧ snapshot.storageBytes = none) ∧
  ∀ measured, sawIn reads .storageUsed = some measured → ∃ ready storageBytes,
    sawIn reads .claimReady = some ready ∧ snapshot.storageBytes = some storageBytes ∧
    let incoming := ((ready.readyFiles batch.id).map fun f => f.inputBytes.getD 0).sum
    let deficit : Int :=
      (measured.storageUsed batch.subject startedAt : Int) + incoming - storageBytes
    (deficit ≤ 0 → sawIn reads .evictable = none ∧ evicted = [] ∧ ¬ refused) ∧
    (0 < deficit → ∃ seen, sawIn reads .evictable = some seen ∧
      let outcome :=
        evictWhile deficit ((seen.evictable batch.subject startedAt).map ConversionFile.candidate)
      (0 < outcome.2 → refused) ∧ (outcome.2 ≤ 0 → ¬ refused ∧ outcome.1 = evicted))

theorem StorageSeen.congr {batch : ConversionBatch} {snapshot : EntitlementSnapshot}
    {startedAt : Nat} {reads reads' : List (Statement × Database)}
    {evicted : List EvictionCandidate} {refused : Prop}
    (h : StorageSeen batch snapshot startedAt reads evicted refused)
    (hSame : ∀ name ∈ [Statement.storageUsed, .claimReady, .evictable],
      sawIn reads' name = sawIn reads name) :
    StorageSeen batch snapshot startedAt reads' evicted refused := by
  unfold StorageSeen
  rw [hSame .storageUsed (by decide), hSame .claimReady (by decide), hSame .evictable (by decide)]
  exact h

theorem StorageSeen.checked {e : LogEntry} {batch : ConversionBatch}
    {snapshot : EntitlementSnapshot} {evicted : List EvictionCandidate} {refused : Prop}
    (h : StorageSeen batch snapshot e.startedAt e.reads evicted refused)
    (hCall : ∃ ownership, e.call.admission = some (batch.id, ownership, snapshot) ∧
      ownership.subject = batch.subject)
    (hRefused : e.error = some (.admission .storageLimitExceeded) ↔ refused)
    (hEvicted : e.error = none → ∀ id, Evicted e id ↔ id ∈ evicted.map EvictionCandidate.id) :
    StorageChecked e := by
  intro batchId ownership snapshot' hAdmission
  obtain ⟨ownership', hCall', hSubject⟩ := hCall
  cases hAdmission.symm.trans hCall'
  refine ⟨fun hUnseen => ?_, fun measured hMeasured => ?_⟩
  · obtain ⟨hNot, rfl, hUncapped⟩ := h.1 hUnseen
    refine ⟨fun hError => hNot (hRefused.mp hError),
      fun hCommitted => ⟨fun id hId => ?_, fun hCapped => absurd hUncapped hCapped⟩⟩
    exact absurd ((hEvicted hCommitted id).mp hId) List.not_mem_nil
  obtain ⟨ready, storageBytes, hReady, hStorage, hFits, hExceeds⟩ := h.2 measured hMeasured
  rw [← hSubject] at hFits hExceeds
  refine ⟨ready, storageBytes, hReady, hStorage, fun hNone => ?_, fun hSome => ?_⟩
  · obtain ⟨hSaw, rfl, hNot⟩ := hFits hNone
    refine ⟨hSaw, fun hError => hNot (hRefused.mp hError), fun hCommitted id hId => ?_⟩
    exact absurd ((hEvicted hCommitted id).mp hId) List.not_mem_nil
  · obtain ⟨seen, hSeen, hRest, hDone⟩ := hExceeds hSome
    refine ⟨seen, hSeen, fun hLeft => hRefused.mpr (hRest hLeft), fun hLeft => ?_⟩
    obtain ⟨hNot, hOutcome⟩ := hDone hLeft
    refine ⟨fun hError => hNot (hRefused.mp hError), fun hCommitted id => ?_⟩
    rw [hOutcome]
    exact hEvicted hCommitted id

end Pixaeron.Conversion
