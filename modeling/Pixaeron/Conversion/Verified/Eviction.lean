import Pixaeron.Conversion.Eviction
import Pixaeron.Conversion.Verified.Rollup

/-! # Verified: eviction

What an admission that has locked its subject may rely on while it makes room.
-/

namespace Pixaeron.Conversion

open Transactions Transactions.Script

variable {services : Services} {p : Policy} {call : Call} {s s' : Shared conversion Call}

section Victims

variable {subject : String} {startedAt : Nat} {evicted : List EvictionCandidate}
  {held : Resource → Prop}
  {c : EvictionCandidate}

theorem Victims.batch (h : Victims subject startedAt evicted held s.db) (hc : c ∈ evicted) :
    ∃ f b, s.db.files.get c.id = some f ∧ f.batchId = c.batchId ∧ f.status = .completed ∧
      s.db.batches.get c.batchId = some b ∧ b.subject = subject := by
  obtain ⟨_, f, hGet, rfl, hCompleted, hSubject, _⟩ := h.found c hc
  obtain ⟨b, hb, hOwner⟩ := Option.map_eq_some_iff.mp hSubject
  exact ⟨f, b, hGet, rfl, hCompleted, hb, hOwner⟩

theorem Victims.issued {now : Nat} (h : Victims subject startedAt evicted held s.db)
    (hCons : Consistent s.db now) (hc : c ∈ evicted) : c.batchId ∈ s.db.issued := by
  obtain ⟨_, b, _, _, _, hb, _⟩ := h.batch hc
  rw [← Table.key_of_get hb]
  exact hCons.issuedBatches b (Table.mem_of_get hb)

theorem Victims.later (h : Victims subject startedAt evicted held s.db)
    (hRely : (discipline services p).Rely held s s') :
    Victims subject startedAt evicted held s'.db := by
  have hBatch : ∀ c ∈ evicted, ∃ b b', s.db.batches.get c.batchId = some b ∧
    s'.db.batches.get c.batchId = some b' ∧
      BatchStep b b' ∧ b.subject = subject := by
    intro c hc
    obtain ⟨f, b, hGet, hId, _, hb, hOwner⟩ := h.batch hc
    have hGet' := rely_file hRely (h.found c hc).1 hGet
    obtain ⟨b', hb'⟩ := (rely_consistent hRely).owned f (Table.mem_of_get hGet')
    rw [hId] at hb'
    have hKnows := rely_knows hRely ((Sound.consistent hRely.before).knows hb)
    exact ⟨b, b', hb, hb', hKnows.2 b' (Table.key_of_get hb ▸ hb'), hOwner⟩
  refine ⟨fun c hc => ?_, h.distinct, fun c hc b' hb' => ?_⟩
  · obtain ⟨hHeld, f, hGet, hCandidate, hCompleted, _, hLater⟩ := h.found c hc
    obtain ⟨b, b', _, hb', hStep, hOwner⟩ := hBatch c hc
    refine ⟨hHeld, f, rely_file hRely hHeld hGet, hCandidate, hCompleted, ?_, hLater⟩
    subst hCandidate
    rw [Database.subjectOf, show f.batchId = f.candidate.batchId from rfl, hb', Option.map_some,
      hStep.subject, hOwner]
  · obtain ⟨b, b'', hb, hb'', hStep, _⟩ := hBatch c hc
    cases hb'.symm.trans hb''
    exact hStep.createdAt ▸ h.guarded c hc b hb

theorem Victims.mono {held' : Resource → Prop} {db : Database}
    (h : Victims subject startedAt evicted held db) (hMore : ∀ r, held r → held' r) :
    Victims subject startedAt evicted held' db :=
  ⟨fun c hc => ⟨hMore _ (h.found c hc).1, (h.found c hc).2⟩, h.distinct,
    fun c hc b hb => (h.guarded c hc b hb).imp_left (hMore _)⟩

/-- A batch of which nothing is left stays so. -/
theorem Victims.gone (h : Victims subject startedAt evicted held s.db) (hc : c ∈ evicted)
    (hGone : AllGone (evicted.map EvictionCandidate.id) c.batchId s.db)
    (hRely : (discipline services p).Rely held s s') :
    AllGone (evicted.map EvictionCandidate.id) c.batchId s'.db := by
  refine rely_all_files hRely (fun f f' hStep hHere => ?_)
    (h.issued (Sound.consistent hRely.before) hc) hGone
  rcases hHere with hMem | hExpired
  · exact .inl (hStep.id ▸ hMem)
  · have hProgress := hStep.progress
    rw [hExpired] at hProgress
    exact .inr (by simpa [ConversionFileStatus.moves] using hProgress)

/-- What is left of a batch stays: other evictions wait for the subject, and the sweep for the
lock of the batch or for its first hour to pass. -/
theorem Victims.stays (h : Victims subject startedAt evicted held s.db)
    (hSubject : held (.subject subject)) (hc : c ∈ evicted)
    (hStays : SomeStays (evicted.map EvictionCandidate.id) c.batchId s.db)
    (hRely : (discipline services p).Rely held s s')
    (hTime : s'.now ≤ startedAt + transactionTimeoutMs) :
    SomeStays (evicted.map EvictionCandidate.id) c.batchId s'.db := by
  obtain ⟨f, b, hGet, hId, _, hb, hOwner⟩ := h.batch hc
  obtain ⟨w, hw, hWitness, hKept, hStatus⟩ := hStays
  have hGuard := h.guarded c hc b hb
  have hAll : s'.db.files.get c.id = some f ∧
      (∃ b', s'.db.batches.get c.batchId = some b' ∧ b'.subject = subject ∧
        b'.createdAt = b.createdAt) ∧
      ∃ w', s'.db.files.get w.id = some w' ∧ w'.batchId = c.batchId ∧ w'.status ≠ .expired := by
    refine rely_preserves hRely (P := fun db => db.files.get c.id = some f ∧
      (∃ b', db.batches.get c.batchId = some b' ∧ b'.subject = subject ∧
        b'.createdAt = b.createdAt) ∧
      ∃ w', db.files.get w.id = some w' ∧ w'.batchId = c.batchId ∧ w'.status ≠ .expired)
      (fun e hLegal hCons hUntil _ hRespects hHere => ?_)
      ⟨hGet, ⟨b, hb, hOwner, rfl⟩, w, Table.get_of_mem hw, hWitness, hStatus⟩
    obtain ⟨hFile, ⟨b₁, hb₁, hOwner₁, hBorn₁⟩, w₁, hw₁, hBatch₁, hStatus₁⟩ := hHere
    have hFile' := hRespects _ (h.found c hc).1 f hFile
    have hKey := Table.key_of_get hb₁
    obtain ⟨b₂, hb₂, hStep⟩ : ∃ b₂, e.after.batches.get c.batchId = some b₂ ∧ BatchStep b₁ b₂ := by
      rcases hLegal.batchAfter (hKey.symm ▸ hb₁) with ⟨b₂, hb₂, hStep⟩ | ⟨_, hNone⟩
      · exact ⟨b₂, hKey ▸ hb₂, hStep⟩
      · exact absurd (hId.trans hKey.symm) (hNone f (Table.mem_of_get hFile'))
    have hKeyW := Table.key_of_get hw₁
    rcases hLegal.fileAfter (hKeyW.symm ▸ hw₁) with ⟨w₂, hw₂, hFileStep⟩ | ⟨_, hGone, _⟩
    · refine ⟨hFile', ⟨b₂, hb₂, hStep.subject.trans hOwner₁, hStep.createdAt.trans hBorn₁⟩, w₂,
        hKeyW ▸ hw₂,
        hFileStep.batchId.trans hBatch₁, fun hExpired => ?_⟩
      have hSubjectOf : e.before.subjectOf w₁ = some subject := by
        rw [Database.subjectOf, hBatch₁, hb₁, Option.map_some, hOwner₁]
      obtain ⟨b₃, hb₃, hHour⟩ :=
        (hRespects _ hSubject).1 w₁ w₂ (hKeyW.symm ▸ hw₁) hSubjectOf hStatus₁ hw₂ hExpired
      rw [hBatch₁, hb₁, Option.some.injEq] at hb₃
      subst hb₃
      unfold hourMs at hHour
      unfold transactionTimeoutMs at hTime
      rcases hGuard with hLocked | hYoung
      · obtain ⟨_, hPasses, _⟩ := hRespects _ hLocked b₁ hb₁
        obtain ⟨w₃, hw₃, _, hPass⟩ := hPasses w₁ (Table.mem_of_get hw₁) hBatch₁
        cases hw₂.symm.trans hw₃
        rcases hPass with hQuiet | ⟨_, _, hEarly⟩
        · exact hStatus₁ ((hQuiet.eq_iff (by decide)).mp hExpired)
        · unfold transactionTimeoutMs at hEarly
          omega
      · omega
    · rw [hBatch₁, hb₂] at hGone
      cases hGone
  obtain ⟨_, _, w', hw', hBatch', hStatus'⟩ := hAll
  exact ⟨w', Table.mem_of_get hw', hBatch', Table.key_of_get hw' ▸ hKept, hStatus'⟩

end Victims

/-! ## The roll-up of an evicted batch -/

def Database.evictFiles (db : Database) (ids : List Uuid) (evictedAt : Nat) : Database :=
  db.changeFiles ids fun f => { f with status := .expired, expiresAt := evictedAt }

theorem mem_statuses_evictFiles {db : Database} {ids : List Uuid} {evictedAt : Nat} {id : Uuid}
    {st : ConversionFileStatus} :
    st ∈ (db.evictFiles ids evictedAt).statuses id ↔ ∃ f ∈ db.files.rows, f.batchId = id ∧
      (if f.id ∈ ids then .expired else f.status) = st := by
  rw [Database.evictFiles, mem_statuses_changeFiles (by exact fun _ => rfl)]
  refine exists_congr fun f => and_congr_right fun _ => and_congr_right fun _ => ?_
  split <;> rfl

/-- The roll-up of an evicted batch either does nothing, and something is left of the batch, or it
sets the batch to EXPIRED, and nothing is. -/
theorem RolledUp.evicted {subject : String} {startedAt : Nat} (evictedAt : Nat)
    {evicted : List EvictionCandidate} {held : Resource → Prop} {c : EvictionCandidate}
    {seen found : Database} {rolled : List Uuid} (h : RolledUp c.batchId seen found rolled)
    (hVictims : Victims subject startedAt evicted held s.db) (hc : c ∈ evicted)
    (hRely : (discipline services p).Rely held s s')
    (hSeen : seen.statuses c.batchId =
      (s.db.evictFiles (evicted.map EvictionCandidate.id) evictedAt).statuses c.batchId)
    (hFound : found.batches.get c.batchId = s'.db.batches.get c.batchId) :
    rolled = [] ∧ SomeStays (evicted.map EvictionCandidate.id) c.batchId s.db ∨
    c.batchId ∈ rolled ∧ rolledStatus (seen.statuses c.batchId) = .expired ∧
      AllGone (evicted.map EvictionCandidate.id) c.batchId s.db := by
  have hStays : (∃ st ∈ seen.statuses c.batchId, st ≠ .expired) →
      SomeStays (evicted.map EvictionCandidate.id) c.batchId s.db := by
    rintro ⟨st, hSt, hNot⟩
    rw [hSeen] at hSt
    obtain ⟨f, hf, hId, hStatus⟩ := mem_statuses_evictFiles.mp hSt
    by_cases hMem : f.id ∈ evicted.map EvictionCandidate.id
    · rw [if_pos hMem] at hStatus
      exact absurd hStatus.symm hNot
    · rw [if_neg hMem] at hStatus
      exact ⟨f, hf, hId, hMem, hStatus ▸ hNot⟩
  by_cases hAll : ∀ st ∈ seen.statuses c.batchId, st ∈ terminalFileStatuses
  · have hTerminal : ∀ f ∈ s'.db.files.rows, f.batchId = c.batchId →
      f.status ∈ terminalFileStatuses := by
      refine rely_all_files hRely (fun f f' hStep =>
        ConversionFileStatus.terminal_of_moves hStep.progress)
        (hVictims.issued (Sound.consistent hRely.before) hc) fun f hf hId => ?_
      have hMem : (if f.id ∈ evicted.map EvictionCandidate.id then .expired else f.status) ∈
        seen.statuses c.batchId := by
        rw [hSeen]
        exact mem_statuses_evictFiles.mpr ⟨f, hf, hId, rfl⟩
      by_cases hEvicted : f.id ∈ evicted.map EvictionCandidate.id
      · obtain ⟨k, hk, hKey⟩ := List.mem_map.mp hEvicted
        obtain ⟨_, f', hGet', _, hCompleted, _⟩ := hVictims.found k hk
        rw [hKey, Table.get_of_mem hf] at hGet'
        cases hGet'
        rw [hCompleted]
        decide
      · rw [if_neg hEvicted] at hMem
        exact hAll _ hMem
    obtain ⟨f, b, hGet, hId, hCompleted, hb, _⟩ := (hVictims.later hRely).batch hc
    have hAgrees := (rely_consistent hRely).agrees _ b hb
    have hStatus : b.status ∈ [.completed, .partialBatch, .failed, .expired] := by
      refine hAgrees.terminal.mpr fun st hSt => ?_
      obtain ⟨f', hf', hId', rfl⟩ := mem_statuses.mp hSt
      exact hTerminal f' hf' hId'
    have hLeft : ConversionFileStatus.completed ∈ s'.db.statuses c.batchId :=
      mem_statuses.mpr ⟨f, Table.mem_of_get hGet, hId, hCompleted⟩
    by_cases hExpired : rolledStatus (seen.statuses c.batchId) = .expired
    · refine .inr ⟨(h.mem hAll _).mpr ⟨rfl, b, hFound.trans hb, ?_⟩, hExpired,
        fun f' hf' hId' => ?_⟩
      · have hNotExpired : b.status ≠ .expired :=
          fun hEq => absurd (hAgrees.expired.mp hEq _ hLeft) (by decide)
        have hNotFailed : b.status ≠ .failed := fun hEq => (hAgrees.failed hEq).1 hLeft
        rw [hExpired]
        revert hStatus hNotExpired hNotFailed
        cases b.status <;> decide
      · have hSt :=
          rolledStatus_expired.mp hExpired (if f'.id ∈ evicted.map EvictionCandidate.id then
            .expired else f'.status)
          (by rw [hSeen]; exact mem_statuses_evictFiles.mpr ⟨f', hf', hId', rfl⟩)
        by_cases hMem : f'.id ∈ evicted.map EvictionCandidate.id
        · exact .inl hMem
        · rw [if_neg hMem] at hSt
          exact .inr hSt
    · refine .inl ⟨List.eq_nil_iff_forall_not_mem.mpr fun id hMem => ?_, hStays ?_⟩
      · obtain ⟨rfl, b', hb', hFrom⟩ := (h.mem hAll id).mp hMem
        cases (hFound.symm.trans hb').symm.trans hb
        rw [rolledFrom, if_neg hExpired] at hFrom
        revert hStatus hFrom
        cases b.status <;> decide
      · by_contra hNone
        push Not at hNone
        exact hExpired (rolledStatus_expired.mpr hNone)
  · push Not at hAll
    obtain ⟨st, hSt, hOpen⟩ := hAll
    exact .inl ⟨h.quiet ⟨st, hSt, hOpen⟩, hStays ⟨st, hSt, fun hEq => hOpen (hEq ▸ by decide)⟩⟩

theorem Extends.sawIn {l l' : Local conversion} {tx tx' : LocalTx conversion}
    (h : Extends l tx l' tx') :
    ∀ name ∈ [Statement.storageUsed, .claimReady, .evictable],
      sawIn tx'.reads name = sawIn tx.reads name :=
  fun name hName => congrArg (Option.map Prod.snd) (h.reads name hName)

/-! ## An admission under way -/

/-- An admission that has claimed some files, which it has locked with their batch. -/
structure Admitting (call : Call) (batch : ConversionBatch) (snapshot : EntitlementSnapshot)
    (claimed : List ClaimedFile) (l : Local conversion) (tx : LocalTx conversion)
    (s : Shared conversion Call) : Prop where
  within : Within l tx s
  limit : tx.limit = transactionTimeoutMs
  call : ∃ ownership, call.admission = some (batch.id, ownership, snapshot) ∧
    ownership.subject = batch.subject
  born : batch.createdAt ≤ tx.startedAt
  knows : s.db.Knows batch
  own : l.held (.batch batch.id)
  subject : snapshot.storageBytes ≠ none → l.held (.subject batch.subject)
  nonempty : claimed ≠ []
  distinct : (claimed.map ClaimedFile.id).Nodup
  ready : ∀ c ∈ claimed, l.held (.file c.id) ∧ ∃ f, s.db.files.get c.id = some f ∧
    f.status = .ready ∧
    f.batchId = batch.id ∧ f.claimed = c

section Admitting

variable {batch : ConversionBatch} {snapshot : EntitlementSnapshot} {claimed : List ClaimedFile}
  {l l' : Local conversion} {tx tx' : LocalTx conversion}
    (h : Admitting call batch snapshot claimed l tx s)

include h

theorem Admitting.later (hRely : (discipline services p).Rely l.held s s') :
    Admitting call batch snapshot claimed l tx s' :=
  { h with
    within := h.within.later hRely
    knows := rely_knows hRely h.knows
    ready := fun c hc => by
      obtain ⟨hHeld, f, hGet, hFile⟩ := h.ready c hc
      exact ⟨hHeld, f, rely_file hRely hHeld hGet, hFile⟩ }

theorem Admitting.goes_on (hWithin : Within l' tx' s) (hStarted : tx'.startedAt = tx.startedAt)
    (hLimit : tx'.limit = tx.limit) (hHeld : ∀ r, l.held r → l'.held r) :
    Admitting call batch snapshot claimed l' tx' s where
  within := hWithin
  limit := hLimit.trans h.limit
  call := h.call
  born := hStarted ▸ h.born
  knows := h.knows
  own := hHeld _ h.own
  subject hCapped := hHeld _ (h.subject hCapped)
  nonempty := h.nonempty
  distinct := h.distinct
  ready c hc := ⟨hHeld _ (h.ready c hc).1, (h.ready c hc).2⟩

theorem Admitting.ran {name : Statement} {locks : List Resource} {write : Database → Database}
    {seen : Database} (hRan : Ran name locks write seen l tx l' tx') (hWithin : Within l' tx' s) :
    Admitting call batch snapshot claimed l' tx' s :=
  h.goes_on hWithin hRan.startedAt hRan.limit hRan.keeps

theorem Admitting.extends (hExtends : Extends l tx l' tx') (hWithin : Within l' tx' s) :
    Admitting call batch snapshot claimed l' tx' s :=
  h.goes_on hWithin hExtends.startedAt hExtends.limit hExtends.held

end Admitting

def incomingBytes (claimed : List ClaimedFile) : Nat :=
  (claimed.map fun file => file.inputBytes.getD 0).sum

structure RoomMade (services : Services) (p : Policy) (call : Call) (batch : ConversionBatch)
    (snapshot : EntitlementSnapshot) (claimed : List ClaimedFile) (evicted : List EvictionCandidate)
    (rolled : List Uuid) (l : Local conversion) (tx : LocalTx conversion)
    (s : Shared conversion Call) : Prop extends Admitting call batch snapshot claimed l tx s where
  victims : Victims batch.subject tx.startedAt evicted l.held s.db
  rolledUp : ∀ id ∈ rolled, l.held (.batch id) ∧ id ∈ evicted.map EvictionCandidate.batchId
  settled : ∀ s', (discipline services p).Rely l.held s s' → s'.now ≤ tx.startedAt + tx.limit →
    ∀ c ∈ evicted, BatchSettled (evicted.map EvictionCandidate.id) rolled c.batchId s'.db
  seen : StorageSeen batch snapshot tx.startedAt tx.reads evicted False
  needed : evicted ≠ [] → ∃ storageBytes measured, snapshot.storageBytes = some storageBytes ∧
    sawIn tx.reads .storageUsed = some measured ∧
    storageBytes < measured.storageUsed batch.subject tx.startedAt + incomingBytes claimed
  room : ∀ storageBytes, snapshot.storageBytes = some storageBytes → p.cap batch.subject ≠ none →
    s.db.storageUsed batch.subject tx.startedAt + incomingBytes claimed ≤ storageBytes +
      freed evicted

section RoomMade

variable {batch : ConversionBatch} {snapshot : EntitlementSnapshot} {claimed : List ClaimedFile}
  {evicted : List EvictionCandidate} {rolled : List Uuid} {l l' : Local conversion}
    {tx tx' : LocalTx conversion}
  (h : RoomMade services p call batch snapshot claimed evicted rolled l tx s)

include h

theorem RoomMade.later (hRely : (discipline services p).Rely l.held s s') :
    RoomMade services p call batch snapshot claimed evicted rolled l tx s' where
  toAdmitting := h.toAdmitting.later hRely
  victims := h.victims.later hRely
  rolledUp := h.rolledUp
  settled s'' hNext := h.settled s'' (hRely.trans hNext)
  seen := h.seen
  needed := h.needed
  room storageBytes hStorage hCapped := by
    have hSubject := h.subject (by rw [hStorage]; simp)
    have hLess := rely_storage hRely hSubject hCapped tx.startedAt
    have hRoom := h.room storageBytes hStorage hCapped
    omega

theorem RoomMade.extends (hExtends : Extends l tx l' tx') (hWithin : Within l' tx' s) :
    RoomMade services p call batch snapshot claimed evicted rolled l' tx' s where
  toAdmitting := h.toAdmitting.extends hExtends hWithin
  victims := hExtends.startedAt ▸ h.victims.mono hExtends.held
  rolledUp id hId := ⟨hExtends.held _ (h.rolledUp id hId).1, (h.rolledUp id hId).2⟩
  settled s'' hNext hTime :=
    h.settled s'' (hExtends.rely hNext) (by rwa [hExtends.startedAt, hExtends.limit] at hTime)
  seen := hExtends.startedAt ▸ h.seen.congr hExtends.sawIn
  needed hSome := by
    rw [hExtends.sawIn .storageUsed (by decide), hExtends.startedAt]
    exact h.needed hSome
  room := hExtends.startedAt ▸ h.room

end RoomMade

/-! ## The roll-ups after an eviction -/

theorem Database.setStatus_append {db : Database} {ids ids' : List Uuid}
    {status : ConversionBatchStatus} :
    (db.setStatus ids status).setStatus ids' status = db.setStatus (ids ++ ids') status := by
  unfold setStatus changeBatches
  rw [Table.modify_modify fun _ => by rfl]

/-- An admission that has evicted and has still to roll up the batches in `rest`. -/
structure Rolling (services : Services) (p : Policy) (call : Call) (batch : ConversionBatch)
    (snapshot : EntitlementSnapshot) (claimed : List ClaimedFile) (evicted : List EvictionCandidate)
    (evictedAt : Nat) (rest rolled : List Uuid) (l : Local conversion) (tx : LocalTx conversion)
    (s : Shared conversion Call) : Prop extends Admitting call batch snapshot claimed l tx s where
  pending : ∀ db, tx.pending db =
    (db.evictFiles (evicted.map EvictionCandidate.id) evictedAt).setStatus rolled .expired
  victims : Victims batch.subject tx.startedAt evicted l.held s.db
  rolledUp : ∀ id ∈ rolled, l.held (.batch id) ∧
    id ∈ evicted.map EvictionCandidate.batchId ∧ id ∉ rest
  settled : ∀ s', (discipline services p).Rely l.held s s' → s'.now ≤ tx.startedAt + tx.limit →
    ∀ c ∈ evicted, c.batchId ∉ rest →
      BatchSettled (evicted.map EvictionCandidate.id) rolled c.batchId s'.db

section Rolling

variable {batch : ConversionBatch} {snapshot : EntitlementSnapshot} {claimed : List ClaimedFile}
  {evicted : List EvictionCandidate} {evictedAt : Nat} {rest rolled : List Uuid}
    {l : Local conversion} {tx : LocalTx conversion}

theorem Rolling.later
    (h : Rolling services p call batch snapshot claimed evicted evictedAt rest rolled l tx s)
    (hRely : (discipline services p).Rely l.held s s') :
    Rolling services p call batch snapshot claimed evicted evictedAt rest rolled l tx s' where
  toAdmitting := h.toAdmitting.later hRely
  pending := h.pending
  victims := h.victims.later hRely
  rolledUp := h.rolledUp
  settled s'' hNext := h.settled s'' (hRely.trans hNext)

theorem Rolling.rollUp {batchId : Uuid} {s₁ s₂ s₃ : Shared conversion Call} {r : List Uuid}
    {l' : Local conversion} {tx' : LocalTx conversion}
    (h : Rolling services p call batch snapshot claimed evicted evictedAt
      (batchId :: rest) rolled l tx s) (hNodup : (batchId :: rest).Nodup)
    (hVictim : batchId ∈ evicted.map EvictionCandidate.batchId)
    (hCapped : snapshot.storageBytes ≠ none) (hRely₁ : (discipline services p).Rely l.held s s₁)
    (hRely₂ : (discipline services p).Rely l.held s₁ s₂)
    (hRely₃ : (discipline services p).Rely l'.held s₂ s₃) (hWithin : Within l' tx' s₃)
    (hExtends : Extends l tx l' tx')
    (hRolled : RolledUp batchId (tx.pending s₁.db) (tx.pending s₂.db) r) (hPending : tx'.pending =
      (fun db => db.setStatus r (rolledStatus ((tx.pending s₁.db).statuses batchId))) ∘ tx.pending)
    (hHeld : ∀ id ∈ r, l'.held (.batch id)) :
    Rolling services p call batch snapshot claimed evicted evictedAt rest
      (rolled ++ r) l' tx' s₃ := by
  have hVictims := h.victims.later hRely₁
  have hRely₂₃ := hRely₂.trans (hExtends.rely hRely₃)
  have hApart : batchId ∉ rolled := fun hMem => (h.rolledUp batchId hMem).2.2 List.mem_cons_self
  have hOutcome : ∀ c ∈ evicted, c.batchId = batchId →
      r = [] ∧ SomeStays (evicted.map EvictionCandidate.id) c.batchId s₁.db ∨
      c.batchId ∈ r ∧ rolledStatus ((tx.pending s₁.db).statuses c.batchId) = .expired ∧
        AllGone (evicted.map EvictionCandidate.id) c.batchId s₁.db := by
    rintro c hc rfl
    refine RolledUp.evicted evictedAt hRolled hVictims hc hRely₂ ?_ ?_
    · rw [h.pending]
      rfl
    · rw [h.pending]
      rw [Database.setStatus, get_changeBatches_of_not_mem hApart]
      rfl
  obtain ⟨c, hc, hId⟩ := List.mem_map.mp hVictim
  refine ⟨(h.later (hRely₁.trans hRely₂₃)).toAdmitting.extends hExtends hWithin, fun db => ?_,
    hExtends.startedAt ▸ (hVictims.later hRely₂₃).mono hExtends.held, fun id hMem =>
      ?_, fun s' hRely hTime c' hc' hDone => ?_⟩
  · rw [hPending, Function.comp_apply, h.pending]
    rcases hOutcome c hc hId with ⟨hNone, _⟩ | ⟨_, hExpired, _⟩
    · rw [hNone, List.append_nil]
      exact changeBatches_nil
    · rw [hId] at hExpired
      rw [hExpired, Database.setStatus_append]
  · rcases List.mem_append.mp hMem with hOld | hNew
    · obtain ⟨hLocked, hBatch, hNot⟩ := h.rolledUp id hOld
      exact ⟨hExtends.held _ hLocked, hBatch, fun hRest => hNot (List.mem_cons_of_mem _ hRest)⟩
    · obtain rfl := hRolled.eq_batchId hNew
      exact ⟨hHeld _ hNew, hVictim, (List.nodup_cons.mp hNodup).1⟩
  · rw [hExtends.startedAt, hExtends.limit] at hTime
    have hLater := hRely₂₃.trans (hExtends.rely hRely)
    by_cases hSame : c'.batchId = batchId
    · rcases hOutcome c' hc' hSame with ⟨hNone, hStays⟩ | ⟨hMem, _, hGone⟩
      · refine .inr ⟨by rw [hNone, List.append_nil, hSame]; exact hApart, ?_⟩
        exact hVictims.stays (h.subject hCapped) hc' hStays hLater (h.limit ▸ hTime)
      · exact .inl ⟨List.mem_append_right _ hMem, hVictims.gone hc' hGone hLater⟩
    · have hOld := h.settled s' (hRely₁.trans hLater) hTime c' hc' fun hMem =>
        (List.mem_cons.mp hMem).elim hSame hDone
      refine hOld.imp (fun hIn => ⟨List.mem_append_left _ hIn.1, hIn.2⟩) fun hOut =>
        ⟨fun hMem => ?_, hOut.2⟩
      exact (List.mem_append.mp hMem).elim hOut.1 fun hNew => hSame (hRolled.eq_batchId hNew)

theorem wp_rollUps {batchIds : List Uuid}
    {Q : Unit → Local conversion → Shared conversion Call → Prop}
    (h : Rolling services p call batch snapshot claimed evicted evictedAt batchIds rolled l tx s)
    (hNodup : batchIds.Nodup) (hVictims : ∀ id ∈ batchIds,
      id ∈ evicted.map EvictionCandidate.batchId) (hCapped : snapshot.storageBytes ≠ none)
    (hInv : (ledger services p).Sound s)
    (hNext : ∀ rolled l' tx' s', (discipline services p).Rely l.held s s' → Extends l tx l' tx' →
      Rolling services p call batch snapshot claimed evicted evictedAt [] rolled l' tx' s' →
      Q () l' s') :
    Wp (discipline services p) call
      (forEach (fun batchId => do let _ ← rollUpBatch batchId) batchIds) Q l s := by
  induction batchIds generalizing rolled l tx s with
  | nil =>
    exact wp_finish h.within fun s' hRely _ => hNext _ _ _ _ hRely (.refl l tx) (h.later hRely)
  | cons batchId rest ih =>
    refine Wp.bind hInv
      (Wp.bind hInv (wp_rollUpBatch h.within fun s₁ s₂ s₃ r l' tx' _ hRely₁ hRely₂ hRely₃ hWithin
      hExtends hRolled hPending hHeld => ?_))
    have hRolling :=
      h.rollUp hNodup (hVictims batchId List.mem_cons_self) hCapped hRely₁ hRely₂ hRely₃
        hWithin hExtends
      hRolled hPending hHeld
    have hRely := hRely₁.trans (hRely₂.trans (hExtends.rely hRely₃))
    refine wp_finish hWithin fun s₄ hRely₄ _ => ?_
    refine ih (hRolling.later hRely₄) (List.nodup_cons.mp hNodup).2
      (fun id hMem => hVictims id (List.mem_cons_of_mem _ hMem)) hRely₄.inv
        fun rolled' l'' tx'' s' hRely' hExtends' hDone => ?_
    exact hNext rolled' l'' tx'' s' (hRely.trans (hExtends.rely (hRely₄.trans hRely')))
      (hExtends.trans hExtends') hDone

theorem victims_locked {s₂ s₃ : Shared conversion Call} {held : Resource → Prop} {subject : String}
    {startedAt : Nat} (hRely : (discipline services p).Rely held s₂ s₃)
    (hStarted : startedAt ≤ s₂.now) (hLocked : ∀ b ∈ s₂.db.batches.rows,
      b.subject = subject → held (.batch b.id)) {f : ConversionFile}
    (hf : f ∈ s₃.db.evictable subject startedAt) {b : ConversionBatch}
    (hb : s₃.db.batches.get f.batchId = some b) :
    held (.batch f.batchId) ∨ startedAt ≤ b.createdAt := by
  rcases rely_born hRely hb with ⟨b₂, hb₂, hStep⟩ | hYoung
  · have hSubject := (mem_evictable.mp hf).2.1
    rw [Database.subjectOf, hb, Option.map_some, Option.some.injEq, hStep.subject] at hSubject
    exact .inl (Table.key_of_get hb₂ ▸ hLocked b₂ (Table.mem_of_get hb₂) hSubject)
  · exact .inr (hStarted.trans hYoung)

/-- An admission over its cap that has locked and listed the results it may evict. -/
structure Choosing (p : Policy) (call : Call) (batch : ConversionBatch)
    (snapshot : EntitlementSnapshot) (claimed : List ClaimedFile) (storageBytes : Nat)
    (measured found : Database) (l : Local conversion) (tx : LocalTx conversion)
    (s : Shared conversion Call) : Prop extends Admitting call batch snapshot claimed l tx s where
  storage : snapshot.storageBytes = some storageBytes
  unchanged : ∀ db, tx.pending db = db
  measures : sawIn tx.reads .storageUsed = some measured
  lists : sawIn tx.reads .evictable = some found
  claims : ∃ ready, sawIn tx.reads .claimReady = some ready ∧
    ((ready.readyFiles batch.id).map fun f => f.inputBytes.getD 0).sum = incomingBytes claimed
  exceeds : storageBytes < measured.storageUsed batch.subject tx.startedAt + incomingBytes claimed
  shrinks : p.cap batch.subject ≠ none →
    s.db.storageUsed batch.subject tx.startedAt ≤ measured.storageUsed batch.subject tx.startedAt
  victims : ∀ evicted, evicted <+: (found.evictable batch.subject tx.startedAt).map
    ConversionFile.candidate →
    Victims batch.subject tx.startedAt evicted l.held s.db

section Choosing

variable {storageBytes : Nat} {measured found : Database} {outcome : List EvictionCandidate × Int}

theorem Choosing.capped
    (h : Choosing p call batch snapshot claimed storageBytes measured found l tx s) :
    snapshot.storageBytes ≠ none := by
  rw [h.storage]
  simp

theorem Choosing.later
    (h : Choosing p call batch snapshot claimed storageBytes measured found l tx s)
    (hRely : (discipline services p).Rely l.held s s') :
    Choosing p call batch snapshot claimed storageBytes measured found l tx s' :=
  { h with
    toAdmitting := h.toAdmitting.later hRely
    shrinks := fun hKnown =>
      (rely_storage hRely (h.subject h.capped) hKnown tx.startedAt).trans (h.shrinks hKnown)
    victims := fun evicted hPrefix => (h.victims evicted hPrefix).later hRely }

theorem Choosing.seen
    (h : Choosing p call batch snapshot claimed storageBytes measured found l tx s)
    (hOutcome : outcome =
      evictWhile ((measured.storageUsed batch.subject tx.startedAt : Int) + incomingBytes claimed -
      storageBytes)
      ((found.evictable batch.subject tx.startedAt).map ConversionFile.candidate))
    {refused : Prop} (hRefused : 0 < outcome.2 → refused) (hAccepted : outcome.2 ≤ 0 → ¬ refused) :
    StorageSeen batch snapshot tx.startedAt tx.reads outcome.1 refused := by
  refine ⟨fun hUnseen => (by cases h.measures.symm.trans hUnseen), fun measured' hMeasured => ?_⟩
  rw [h.measures, Option.some.injEq] at hMeasured
  subst hMeasured
  obtain ⟨ready, hReady, hIncoming⟩ := h.claims
  refine ⟨ready, storageBytes, hReady, h.storage, ?_⟩
  dsimp only
  rw [hIncoming]
  have hOver := h.exceeds
  refine ⟨fun hNone => absurd hNone (by omega), fun _ => ⟨found, h.lists, ?_⟩⟩
  rw [← hOutcome]
  exact ⟨hRefused, fun hLeft => ⟨hAccepted hLeft, rfl⟩⟩

theorem Choosing.rolling {evicted : List EvictionCandidate}
    (h : Choosing p call batch snapshot claimed storageBytes measured found l tx s)
    (hPrefix : evicted <+: (found.evictable batch.subject tx.startedAt).map
      ConversionFile.candidate) {l' : Local conversion} {tx' : LocalTx conversion}
    {locks : List Resource} {db : Database} (hDb : db = s.db) (evictedAt : Nat)
    (hRan : Ran .evict locks (fun rows => rows.changeFiles
      ((db.files.select fun f => decide (f.id ∈ evicted.map EvictionCandidate.id)).map
        ConversionFile.id)
      fun f => { f with status := .expired, expiresAt := evictedAt }) db l tx l' tx')
    (hWithin : Within l' tx' s) :
    Rolling services p call batch snapshot claimed evicted evictedAt
      (evicted.map EvictionCandidate.batchId).eraseDups []
      l' tx' s := by
  have hVictims := h.victims evicted hPrefix
  have hExtends := hRan.extends (by decide)
  refine ⟨h.toAdmitting.extends hExtends hWithin, fun rows => ?_,
    hExtends.startedAt ▸ hVictims.mono hExtends.held,
    fun _ hMem => (by cases hMem), fun _ _ _ c hc hNot => ?_⟩
  · rw [hRan.pending, Function.comp_apply, h.unchanged]
    refine Eq.trans ?_ changeBatches_nil.symm
    unfold Database.evictFiles Database.changeFiles
    rw [Table.modify_congr fun k => ?_]
    rw [Table.mem_map_select, hDb]
    refine ⟨fun ⟨f, hGet, hMem⟩ => Table.key_of_get hGet ▸ of_decide_eq_true hMem, fun hMem => ?_⟩
    obtain ⟨c, hc, rfl⟩ := List.mem_map.mp hMem
    obtain ⟨_, f, hGet, _⟩ := hVictims.found c hc
    exact ⟨f, hGet, decide_eq_true (Table.key_of_get hGet ▸ hMem)⟩
  · exact absurd (List.mem_eraseDups.mpr (List.mem_map_of_mem hc)) hNot

theorem Choosing.roomMade
    (h : Choosing p call batch snapshot claimed storageBytes measured found l tx s)
    (hOutcome : outcome =
      evictWhile ((measured.storageUsed batch.subject tx.startedAt : Int) + incomingBytes claimed -
      storageBytes)
      ((found.evictable batch.subject tx.startedAt).map ConversionFile.candidate))
    (hLeft : outcome.2 ≤ 0) {l' : Local conversion} {tx' : LocalTx conversion}
    (hRely : (discipline services p).Rely l.held s s') (hExtends : Extends l tx l' tx')
    (hDone : Rolling services p call batch snapshot claimed outcome.1 evictedAt
      [] rolled l' tx' s') :
    RoomMade services p call batch snapshot claimed outcome.1 rolled l' tx' s' where
  toAdmitting := hDone.toAdmitting
  victims := hDone.victims
  rolledUp id hMem := ⟨(hDone.rolledUp id hMem).1, (hDone.rolledUp id hMem).2.1⟩
  settled s'' hLater hTime c hc := hDone.settled s'' hLater hTime c hc List.not_mem_nil
  seen := by
    have hSeen := h.seen hOutcome (fun hMore => absurd hLeft (not_le.mpr hMore)) fun _ => not_false
    exact hExtends.startedAt ▸ hSeen.congr hExtends.sawIn
  needed _ := by
    refine ⟨storageBytes, measured, h.storage, ?_, hExtends.startedAt ▸ h.exceeds⟩
    rw [hExtends.sawIn .storageUsed (by decide)]
    exact h.measures
  room storageBytes' hStorage hKnown := by
    cases h.storage.symm.trans hStorage
    have hLess := (h.later hRely).shrinks hKnown
    rw [hOutcome, evictWhile_left, ← hOutcome] at hLeft
    rw [hExtends.startedAt]
    omega

theorem wp_evict {Q : Unit → Local conversion → Shared conversion Call → Prop}
    (h : Choosing p call batch snapshot claimed storageBytes measured found l tx s)
    (hOutcome : outcome =
      evictWhile ((measured.storageUsed batch.subject tx.startedAt : Int) + incomingBytes claimed -
      storageBytes)
      ((found.evictable batch.subject tx.startedAt).map ConversionFile.candidate))
    (hLeft : outcome.2 ≤ 0)
    (hNext : ∀ evicted evictedAt rolled l' tx' s',
      RoomMade services p call batch snapshot claimed evicted rolled l' tx' s' →
      (∀ db, tx'.pending db =
        (db.evictFiles (evicted.map EvictionCandidate.id) evictedAt).setStatus rolled .expired) →
      Q () l' s') :
    Wp (discipline services p) call (do
      let _ ← updateFiles .evict (fun _ f => f.id ∈ outcome.1.map EvictionCandidate.id)
        fun v f => { f with status := .expired, expiresAt := v.clock }
      forEach (fun batchId => do let _ ← rollUpBatch batchId)
        (outcome.1.map EvictionCandidate.batchId).eraseDups) Q l s := by
  simp only [Script.bind_eq, Script.pure_eq]
  refine wp_statement h.within (fun v id hMem => by simp at hMem)
    fun s₁ v l₁ tx₁ hRely₁ _ hDb _ _ hWithin hRan => ?_
  rw [Script.bind_done]
  rw [h.unchanged] at hDb
  have hChoosing := h.later hRely₁
  have hRolling : Rolling services p call batch snapshot claimed outcome.1 v.clock
      (outcome.1.map EvictionCandidate.batchId).eraseDups [] l₁ tx₁ s₁ :=
    hChoosing.rolling (hOutcome ▸ evictWhile_prefix) hDb v.clock hRan hWithin
  refine wp_rollUps hRolling (nodup_eraseDups _)
    (fun id hMem => List.mem_eraseDups.mp hMem) h.capped hRely₁.inv
    fun rolled' l' tx' s' hRely' hExtends' hDone => hNext _ _ _ _ _ _ ?_ hDone.pending
  exact hChoosing.roomMade hOutcome hLeft (hRely'.weaken hRan.keeps)
    ((hRan.extends (by decide)).trans hExtends') hDone

end Choosing

theorem wp_evictForIncoming {storageBytes : Nat} {ready : Database}
    {Q : Unit → Local conversion → Shared conversion Call → Prop}
    (h : Admitting call batch snapshot claimed l tx s)
    (hStorage : snapshot.storageBytes = some storageBytes) (hPending : tx.pending = id)
    (hUsed : sawIn tx.reads .storageUsed = none) (hEvictable : sawIn tx.reads .evictable = none)
    (hReady : sawIn tx.reads .claimReady = some ready)
    (hIncoming : ((ready.readyFiles batch.id).map fun f => f.inputBytes.getD 0).sum =
      incomingBytes claimed) (hNext : ∀ evicted evictedAt rolled l' tx' s',
      RoomMade services p call batch snapshot claimed evicted rolled l' tx' s' →
      (∀ db, tx'.pending db =
        (db.evictFiles (evicted.map EvictionCandidate.id) evictedAt).setStatus rolled .expired) →
      Q () l' s') :
    Wp (discipline services p) call (evictForIncoming batch.subject
      (incomingBytes claimed) storageBytes) Q l s := by
  have hCapped : snapshot.storageBytes ≠ none := by rw [hStorage]; simp
  unfold evictForIncoming storageUsedFor
  simp only [Script.bind_eq, Script.pure_eq]
  refine wp_statement h.within (fun _ _ hMem => by cases hMem)
    fun s₁ v₁ l₁ tx₁ hRely₁ _ hDb₁ hNow₁ _ hWithin₁ hRan₁ => ?_
  rw [Script.bind_done]
  rw [hPending] at hDb₁
  change v₁.db = s₁.db at hDb₁
  have h₁ := (h.later hRely₁).ran hRan₁ hWithin₁
  have hPending₁ : ∀ db, tx₁.pending db = db := by
    intro db
    rw [hRan₁.pending, hPending]
    rfl
  beta_reduce
  rw [hDb₁, hNow₁]
  have hSaw₁ : sawIn tx₁.reads .storageUsed = some s₁.db ∧ sawIn tx₁.reads .evictable = none ∧
      sawIn tx₁.reads .claimReady = some ready := by
    rw [hRan₁.reads, hDb₁]
    simp [sawIn_append, hUsed, hEvictable, hReady]
  split
  · next hDeficit =>
    refine wp_statement hWithin₁ (fun v id hMem => by simp at hMem)
      fun s₂ v₂ l₂ tx₂ hRely₂ _ hDb₂ _ _ hWithin₂ hRan₂ => ?_
    rw [Script.bind_done]
    rw [hPending₁] at hDb₂
    refine wp_statement hWithin₂ (fun v id hMem => by simp at hMem)
      fun s₃ v₃ l₃ tx₃ hRely₃ _ hDb₃ hNow₃ _ hWithin₃ hRan₃ => ?_
    rw [Script.bind_done]
    have hPending₂ : ∀ db, tx₂.pending db = db := by
      intro db
      rw [hRan₂.pending]
      exact hPending₁ db
    rw [hPending₂] at hDb₃
    have hStart₃ : tx₃.startedAt = tx.startedAt :=
      hRan₃.startedAt.trans (hRan₂.startedAt.trans hRan₁.startedAt)
    beta_reduce
    rw [hDb₃, hNow₃, ← hRan₃.startedAt, ← hStart₃]
    have hChoosing : Choosing p call batch snapshot claimed storageBytes s₁.db s₃.db l₃ tx₃ s₃ := by
      refine ⟨(((h₁.later hRely₂).ran hRan₂ hWithin₂).later hRely₃).ran hRan₃ hWithin₃, hStorage,
        fun db => ?_, ?_, ?_,
        ⟨ready, ?_, hIncoming⟩, ?_, fun hKnown => ?_, fun evicted hPrefix => ?_⟩
      · rw [hRan₃.pending]
        exact hPending₂ db
      · rw [hRan₃.reads, hRan₂.reads]
        simp [-List.append_assoc, sawIn_append, hSaw₁]
      · rw [hRan₃.reads, hRan₂.reads, hDb₃]
        simp [-List.append_assoc, sawIn_append, hSaw₁]
      · rw [hRan₃.reads, hRan₂.reads]
        simp [-List.append_assoc, sawIn_append, hSaw₁]
      · rw [hStart₃]
        omega
      · rw [hStart₃]
        exact rely_storage (hRely₂.trans (hRely₃.weaken hRan₂.keeps))
          (h₁.subject hCapped) hKnown tx.startedAt
      · refine victims_of_evictable hPrefix (fun f hf => ?_) fun f hf b hb => ?_
        · refine hRan₃.takes (List.mem_map_of_mem ?_)
          rwa [hDb₃, hNow₃, ← hRan₃.startedAt]
        · refine (victims_locked hRely₃ ?_ (fun b hRow hOwner => ?_) hf hb).imp_left (hRan₃.keeps _)
          · rw [hStart₃, ← hRan₁.startedAt]
            exact (hWithin₁.later hRely₂).started
          · refine hRan₂.takes (List.mem_map_of_mem (Table.mem_select.mpr ⟨hDb₂ ▸ hRow, ?_⟩))
            exact decide_eq_true hOwner
    obtain ⟨outcome, hOutcome⟩ : ∃ outcome, outcome =
      evictWhile ((s₁.db.storageUsed batch.subject tx₃.startedAt : Int) + incomingBytes claimed -
        storageBytes)
        ((s₃.db.evictable batch.subject tx₃.startedAt).map ConversionFile.candidate) := ⟨_, rfl⟩
    rw [← hOutcome]
    unfold require
    split
    · next hLeft => exact wp_evict hChoosing hOutcome hLeft hNext
    · next hLeft =>
      have hSeen := hChoosing.seen hOutcome (fun _ => trivial) fun hNone => absurd hNone hLeft
      exact wp_fail hWithin₃ fun s₄ => hSeen.checked h.call (iff_of_true rfl trivial) fun hError =>
        by cases hError
  · next hFits =>
    refine wp_finish hWithin₁ fun s₂ hRely₂ _ =>
      hNext [] 0 [] _ _ _ ⟨h₁.later hRely₂, victims_nil, ?_, ?_, ?_, ?_, ?_⟩ fun db => ?_
    · exact fun _ hMem => by cases hMem
    · exact fun _ _ _ _ hc => by cases hc
    · refine ⟨fun hUnseen => (by cases hSaw₁.1.symm.trans hUnseen), fun measured hMeasured => ?_⟩
      rw [hSaw₁.1, Option.some.injEq] at hMeasured
      subst hMeasured
      refine ⟨ready, storageBytes, hSaw₁.2.2, hStorage, ?_⟩
      dsimp only
      rw [hIncoming, hRan₁.startedAt]
      exact ⟨fun _ => ⟨hSaw₁.2.1, rfl, not_false⟩, fun hSome => absurd hSome hFits⟩
    · exact fun hSome => absurd rfl hSome
    · intro storageBytes' hStorage' hKnown
      cases hStorage.symm.trans hStorage'
      have hLess := rely_storage hRely₂ (h₁.subject hCapped) hKnown tx₁.startedAt
      rw [hRan₁.startedAt] at hLess ⊢
      unfold freed
      simp only [List.map_nil, List.sum_nil]
      omega
    · rw [hPending₁]
      unfold Database.evictFiles Database.setStatus
      rw [List.map_nil, changeFiles_nil, changeBatches_nil]

end Rolling

end Pixaeron.Conversion
