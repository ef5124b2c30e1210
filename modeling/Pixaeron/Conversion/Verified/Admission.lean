import Pixaeron.Conversion.Verified.Eviction
import Pixaeron.Conversion.Verified.Intake

/-! # Verified: admission

From the claim of the files that are ready to the commit that queues them.
-/

namespace Pixaeron.Conversion

open Transactions Transactions.Script

variable {services : Services} {p : Policy} {call : Call} {s s' : Shared conversion Call}
  {batch : ConversionBatch}
  {snapshot : EntitlementSnapshot} {claimed : List ClaimedFile} {evicted : List EvictionCandidate}
    {evictedAt : Nat}
  {rolled : List Uuid} {l : Local conversion} {tx : LocalTx conversion}

/-! ## The daily quota -/

/-- The rows after an eviction and the charge of the day. -/
def Database.charged (db : Database) (batch : ConversionBatch) (snapshot : EntitlementSnapshot)
    (claimed : List ClaimedFile) (evicted : List EvictionCandidate) (evictedAt : Nat)
    (rolled : List Uuid) (startedAt : Nat) : Database :=
  let made := (db.evictFiles (evicted.map EvictionCandidate.id) evictedAt).setStatus rolled .expired
  match snapshot.dailyFiles with
  | some _ => made.reserve batch.subject (dayOf startedAt) claimed.length
  | none => made

/-- An admission that has made room and charged the day. -/
structure Charged (services : Services) (p : Policy) (call : Call) (batch : ConversionBatch)
    (snapshot : EntitlementSnapshot) (claimed : List ClaimedFile) (evicted : List EvictionCandidate)
    (rolled : List Uuid) (l : Local conversion) (tx : LocalTx conversion)
    (s : Shared conversion Call) :
    Prop extends RoomMade services p call batch snapshot claimed evicted rolled l tx s where
  quota : ∀ dailyFiles, snapshot.dailyFiles = some dailyFiles → claimed.length ≤ dailyFiles ∧
    l.held (.usage (batch.subject, dayOf tx.startedAt)) ∧
    s.db.reserves batch.subject (dayOf tx.startedAt) claimed.length dailyFiles = true

theorem Database.reserves_congr {db db' : Database} {subject : String} {day files dailyFiles : Nat}
    (h : db'.usage.get (subject, day) = db.usage.get (subject, day)) :
    db'.reserves subject day files dailyFiles = db.reserves subject day files dailyFiles := by
  unfold reserves
  rw [h]

theorem Charged.later (h : Charged services p call batch snapshot claimed evicted rolled l tx s)
    (hRely : (discipline services p).Rely l.held s s') :
    Charged services p call batch snapshot claimed evicted rolled l tx s' where
  toRoomMade := h.toRoomMade.later hRely
  quota dailyFiles hDaily := by
    obtain ⟨hFew, hHeld, hReserves⟩ := h.quota dailyFiles hDaily
    exact ⟨hFew, hHeld, (Database.reserves_congr (rely_usage hRely hHeld)).trans hReserves⟩

theorem Charged.extends {l' : Local conversion} {tx' : LocalTx conversion}
    (h : Charged services p call batch snapshot claimed evicted rolled l tx s)
    (hExtends : Extends l tx l' tx') (hWithin : Within l' tx' s) :
    Charged services p call batch snapshot claimed evicted rolled l' tx' s where
  toRoomMade := h.toRoomMade.extends hExtends hWithin
  quota dailyFiles hDaily := by
    obtain ⟨hFew, hHeld, hReserves⟩ := h.quota dailyFiles hDaily
    rw [hExtends.startedAt]
    exact ⟨hFew, hExtends.held _ hHeld, hReserves⟩

/-- An admission that has made room fails with any error but that of the storage limit. -/
theorem RoomMade.wp_fail {α : Type} {error : Failure}
    {Q : α → Local conversion → Shared conversion Call → Prop}
    (h : RoomMade services p call batch snapshot claimed evicted rolled l tx s)
    (hError : error ≠ .admission .storageLimitExceeded) :
    Wp (discipline services p) call (.fail error) Q l s :=
  Conversion.wp_fail h.within fun _ => h.seen.checked h.call
    (iff_of_false (fun hSame => hError (Option.some.inj hSame)) not_false) fun hDone =>
      by cases hDone

theorem wp_chargeDailyUsage {Q : Unit → Local conversion → Shared conversion Call → Prop}
    (h : RoomMade services p call batch snapshot claimed evicted rolled l tx s)
    (hPending : ∀ db, tx.pending db =
      (db.evictFiles (evicted.map EvictionCandidate.id) evictedAt).setStatus rolled .expired)
    (hNext : ∀ l' tx' s', Charged services p call batch snapshot claimed evicted rolled l' tx' s' →
      (∀ db, tx'.pending db =
        db.charged batch snapshot claimed evicted evictedAt rolled tx'.startedAt) →
      Q () l' s') :
    Wp (discipline services p) call (chargeDailyUsage batch snapshot claimed) Q l s := by
  unfold chargeDailyUsage
  split
  · next dailyFiles hDaily =>
    unfold reserveDailyUsage require
    simp only [Script.bind_eq]
    split
    · next hFew =>
      rw [Script.bind_done]
      refine wp_statement h.within (fun v id hMem => by simp at hMem)
        fun s₁ v₁ l₁ tx₁ hRely₁ _ hDb₁ hNow₁ _ hWithin₁ hRan₁ => ?_
      rw [Script.bind_done]
      have hExtends := hRan₁.extends (by decide)
      have h₁ := (h.later hRely₁).extends hExtends hWithin₁
      have hReserves : v₁.db.reserves batch.subject (dayOf v₁.now) claimed.length dailyFiles =
          s₁.db.reserves batch.subject (dayOf tx₁.startedAt) claimed.length dailyFiles := by
        rw [hDb₁, hPending, hNow₁, hExtends.startedAt]
        exact Database.reserves_congr rfl
      split
      · next hReserved =>
        refine wp_finish hWithin₁ fun s₂ hRely₂ _ => hNext l₁ tx₁ s₂ ?_ fun db => ?_
        · refine Charged.later ⟨h₁, fun dailyFiles' hDaily' => ?_⟩ hRely₂
          cases hDaily.symm.trans hDaily'
          refine ⟨hFew, hRan₁.takes ?_, hReserves ▸ hReserved⟩
          rw [hExtends.startedAt, ← hNow₁]
          exact List.mem_singleton_self _
        · rw [hRan₁.pending, Function.comp_apply, hPending]
          unfold Database.charged
          rw [hDaily, if_pos hReserved, hNow₁, hExtends.startedAt]
      · exact h₁.wp_fail (by decide)
    · exact h.wp_fail (by decide)
  · next hDaily =>
    refine wp_finish h.within fun s₁ hRely₁ _ =>
      hNext l tx s₁ ⟨h.later hRely₁, fun dailyFiles hSome => ?_⟩ fun db => ?_
    · cases hDaily.symm.trans hSome
    · rw [hPending]
      unfold Database.charged
      rw [hDaily]

/-! ## The commit -/

section Commit

variable {a : Admission} (h : Charged services p call a.batch a.snapshot a.claimed evicted
  a.rolled l tx s)
  (hSound : (ledger services p).Sound s) (hEvicted : a.evicted = evicted.map EvictionCandidate.id)
  (hStarted : a.startedAt = tx.startedAt) (hTime : s.now ≤ tx.startedAt + tx.limit)
  (hAssumes : p.Assumes (commitEntry call l tx s))

include h

theorem Charged.ready_of_claimed {id : Uuid} (hId : id ∈ a.claimedIds) :
    ∃ f, s.db.files.get id = some f ∧ f.status = .ready ∧ f.batchId = a.batch.id := by
  obtain ⟨c, hc, rfl⟩ := List.mem_map.mp hId
  obtain ⟨_, f, hGet, hReady, hBatchId, _⟩ := h.ready c hc
  exact ⟨f, hGet, hReady, hBatchId⟩

theorem Charged.not_claimed {id : Uuid} {f : ConversionFile} (hGet : s.db.files.get id = some f)
    (hCompleted : f.status = .completed) : id ∉ a.claimedIds := by
  intro hMem
  obtain ⟨f', hGet', hReady, _⟩ := h.ready_of_claimed hMem
  cases hGet.symm.trans hGet'
  cases hReady.symm.trans hCompleted

theorem Charged.storageBytes {cap : Nat} (hAssumes : p.Assumes (commitEntry call l tx s))
    (hCap : p.cap a.batch.subject = some cap) : a.snapshot.storageBytes = some cap := by
  obtain ⟨ownership, hCall, hOwner⟩ := h.call
  exact (hAssumes.cap _ cap hCap).1 _ _ _ hCall hOwner

include hEvicted in
theorem Charged.completed_of_evicted {id : Uuid} (hId : id ∈ a.evicted) : ∃ c ∈ evicted, c.id = id ∧
    l.held (.file id) ∧ ∃ f, s.db.files.get id = some f ∧ f.candidate = c ∧ f.status = .completed ∧
      s.db.subjectOf f = some a.batch.subject ∧ tx.startedAt < f.expiresAt := by
  rw [hEvicted] at hId
  obtain ⟨c, hc, rfl⟩ := List.mem_map.mp hId
  obtain ⟨hHeld, f, hFound⟩ := h.victims.found c hc
  exact ⟨c, hc, rfl, hHeld, f, hFound⟩

include hSound hEvicted hStarted hTime hAssumes in
theorem Charged.allowed
    (hRetention : ∃ t, tx.startedAt ≤ t ∧ t ≤ s.now ∧
      a.retentionExpiresAt = t + a.snapshot.outputRetentionHours * hourMs)
    (hClass : retentionClassByHours a.snapshot.outputRetentionHours = some a.outputRetention)
    (hTier : queueForTier a.snapshot.queueTier = .ok a.tierQueue)
    (hBatch : ∃ b, s.db.batches.get a.batch.id = some b ∧
      (b.status = .uploading ∨ b.status = .queued)) :
    a.Allowed services p (commitEntry call l tx s) where
  call := h.call
  started := hStarted
  timely := h.limit ▸ hTime
  retention := hRetention
  retentionClass := hClass
  tier := hTier
  nonempty := h.nonempty
  distinct := h.distinct
  claimed c hc := by
    obtain ⟨_, f, hGet, hReady, hBatchId, hClaimed⟩ := h.ready c hc
    exact ⟨f, hGet, hReady, hBatchId, hClaimed,
      (Sound.consistent hSound).measured f (Table.mem_of_get hGet) hReady⟩
  batch := by
    obtain ⟨b, hb, hStatus⟩ := hBatch
    exact ⟨b, hb, h.knows.2 b hb, hStatus⟩
  born := h.born
  quota dailyFiles hDaily := ⟨(h.quota dailyFiles hDaily).1, (h.quota dailyFiles hDaily).2.2⟩
  evicted id hId := by
    obtain ⟨_, _, _, _, f, hGet, _, hFound⟩ := h.completed_of_evicted hEvicted hId
    exact ⟨f, hGet, hFound⟩
  uncapped hNone := by
    by_contra hSome
    obtain ⟨_, _, hStorage, _⟩ := h.needed fun hNil => hSome (by rw [hEvicted, hNil, List.map_nil])
    cases hNone.symm.trans hStorage
  overCap hSome := h.needed fun hNil => hSome (by rw [hEvicted, hNil, List.map_nil])
  rolled id hId := by
    obtain ⟨c, hc, rfl⟩ := List.mem_map.mp (h.rolledUp id hId).2
    obtain ⟨_, f, hGet, rfl, _⟩ := h.victims.found c hc
    exact ⟨f.candidate.id, hEvicted ▸ List.mem_map_of_mem hc, f, hGet, rfl⟩
  agrees id hId row hRow hOther := by
    obtain ⟨c, hc, rfl, _, f, hGet, rfl, _⟩ := h.completed_of_evicted hEvicted hId
    cases hRow.symm.trans hGet
    refine Admission.agrees_evicted (Sound.consistent hSound) hOther (fun k hk f hGet' hSame => ?_)
      (fun k hk => ?_) ?_
    · obtain ⟨f', hGet'', _, hOwn⟩ := h.ready_of_claimed hk
      cases hGet'.symm.trans hGet''
      exact hOther (hSame.symm.trans hOwn)
    · obtain ⟨_, _, _, _, f', hGet', _, hCompleted, _⟩ := h.completed_of_evicted hEvicted hk
      exact ⟨f', hGet', hCompleted⟩
    · rw [hEvicted]
      exact h.settled s (.refl hSound) hTime row.candidate hc
  cap cap hCap := by
    have hLess := Admission.storage_write services h.victims hEvicted h.distinct fun c hc => by
      obtain ⟨_, f, hGet, hReady, _, hClaimed⟩ := h.ready c hc
      exact ⟨f, hGet, hReady, hClaimed⟩
    have hRoom := h.room cap (h.storageBytes hAssumes hCap) (by rw [hCap]; simp)
    unfold incomingBytes at hRoom
    change (a.write services s.db).storageUsed a.batch.subject tx.startedAt ≤ cap
    omega

theorem Charged.evicted_iff {e : LogEntry} (hEvicted : a.evicted = evicted.map EvictionCandidate.id)
    (hBefore : e.before = s.db) (hAfter : e.after = a.write services s.db) {id : Uuid} :
    Evicted e id ↔ id ∈ evicted.map EvictionCandidate.id := by
  unfold Evicted
  rw [hBefore, hAfter, ← hEvicted]
  constructor
  · rintro ⟨f, f', hGet, hCompleted, hGet', hExpired⟩
    by_contra hNot
    rw [Admission.get_not_claimed (h.not_claimed hGet hCompleted), hGet, Option.map_some,
      if_neg hNot, Option.some.injEq] at hGet'
    rw [← hGet', hCompleted] at hExpired
    cases hExpired
  · intro hMem
    obtain ⟨_, _, _, _, f, hGet, _, hCompleted, _⟩ := h.completed_of_evicted hEvicted hMem
    refine ⟨f, f.expireAt a.evictedAt, hGet, hCompleted, ?_, rfl⟩
    rw [Admission.get_not_claimed (h.not_claimed hGet hCompleted), hGet, Option.map_some,
      if_pos hMem]

include hEvicted hStarted hTime hAssumes in
theorem Charged.held {r : Resource} (hTouches : a.footprint p (commitEntry call l tx s) r) :
    l.held r := by
  rcases hTouches with ⟨id, hFile | hFile, rfl⟩ | rfl | ⟨id, hId, rfl⟩ |
    ⟨id, hId, f, b, hGet, hb, hOld, rfl⟩ |
    ⟨hCapped, rfl⟩ | ⟨hDaily, rfl⟩
  · obtain ⟨c, hc, rfl⟩ := List.mem_map.mp hFile
    exact (h.ready c hc).1
  · obtain ⟨_, _, _, hHeld, _⟩ := h.completed_of_evicted hEvicted hFile
    exact hHeld
  · exact h.own
  · exact (h.rolledUp id hId).1
  · obtain ⟨c, hc, rfl, _, f', hGet', rfl, _⟩ := h.completed_of_evicted hEvicted hId
    cases hGet.symm.trans hGet'
    refine (h.victims.guarded f.candidate hc b hb).resolve_right fun hYoung => ?_
    have hLimit := h.limit
    change b.createdAt + transactionTimeoutMs < s.now at hOld
    omega
  · refine h.subject fun hNone => ?_
    rcases hCapped with hSome | hCap
    · obtain ⟨_, _, hStorage, _⟩ := h.needed fun hNil =>
        hSome (by rw [hEvicted, hNil, List.map_nil])
      cases hNone.symm.trans hStorage
    · obtain ⟨cap, hCap⟩ := Option.ne_none_iff_exists'.mp hCap
      cases hNone.symm.trans (h.storageBytes hAssumes hCap)
  · obtain ⟨dailyFiles, hDaily⟩ := Option.ne_none_iff_exists'.mp hDaily
    rw [hStarted]
    exact (h.quota dailyFiles hDaily).2.1

end Commit

theorem Database.charged_files {db : Database} {startedAt : Nat} :
    (db.charged batch snapshot claimed evicted evictedAt rolled startedAt).files =
      (db.evictFiles (evicted.map EvictionCandidate.id) evictedAt).files := by
  unfold charged
  dsimp only
  split <;> rfl

theorem Database.charged_batches {db : Database} {startedAt : Nat} :
    (db.charged batch snapshot claimed evicted evictedAt rolled startedAt).batches =
      (db.setStatus rolled .expired).batches := by
  unfold charged
  dsimp only
  split <;> rfl

theorem RoomMade.finds_claimed {db : Database}
    (h : RoomMade services p call batch snapshot claimed evicted rolled l tx s)
    (hFiles : db.files = (s.db.evictFiles (evicted.map EvictionCandidate.id) evictedAt).files)
    (k : Uuid) :
    k ∈ (db.files.select fun f => f.id ∈ claimed.map ClaimedFile.id).map ConversionFile.id ↔
      k ∈ claimed.map ClaimedFile.id := by
  rw [Table.mem_map_select]
  constructor
  · rintro ⟨f, hGet, hMem⟩
    exact Table.key_of_get hGet ▸ of_decide_eq_true hMem
  · intro hMem
    obtain ⟨c, hc, rfl⟩ := List.mem_map.mp hMem
    obtain ⟨_, f, hGet, _⟩ := h.ready c hc
    have hGet' : db.files.get c.id =
      some (if c.id ∈ evicted.map EvictionCandidate.id then f.expireAt evictedAt else f) := by
      rw [hFiles, Database.evictFiles, Database.changeFiles_files, Table.get_modify, hGet]
      rfl
    refine ⟨_, hGet', ?_⟩
    rw [Table.key_of_get hGet']
    exact decide_eq_true hMem

/-- Until the batch is claimed it is not the admission's own eviction that has closed it. -/
theorem claimed_batch {db made : Database} {id : Uuid} {rolled : List Uuid}
    (hMade : made.batches = (db.setStatus rolled .expired).batches)
    (hCount : (made.batches.select fun b => b.id =
      id && (b.status = .uploading || b.status = .queued)).length = 1) :
    id ∉ rolled ∧ (∃ b, db.batches.get id = some b ∧ (b.status = .uploading ∨ b.status = .queued)) ∧
      ∀ k, k ∈ (made.batches.select fun b => b.id =
        id && (b.status = .uploading || b.status = .queued)).map
        ConversionBatch.id ↔ k ∈ [id] := by
  obtain ⟨b', hSelected⟩ := List.length_eq_one_iff.mp hCount
  have hMem : b' ∈ made.batches.select fun b =>
    b.id = id && (b.status = .uploading || b.status = .queued) := by
    rw [hSelected]
    exact List.mem_singleton_self b'
  simp only [Table.mem_select, Bool.and_eq_true, Bool.or_eq_true, decide_eq_true_eq] at hMem
  obtain ⟨hRow, rfl, hStatus⟩ := hMem
  have hGet := Table.get_of_mem hRow
  rw [hMade, Database.setStatus, Database.changeBatches_batches, Table.get_modify] at hGet
  obtain ⟨b, hb, hEq⟩ := Option.map_eq_some_iff.mp hGet
  have hOut : b'.id ∉ rolled := by
    intro hIn
    rw [if_pos hIn] at hEq
    rw [← hEq] at hStatus
    rcases hStatus with hNot | hNot <;> cases hNot
  rw [if_neg hOut] at hEq
  subst hEq
  exact ⟨hOut, ⟨b, hb, hStatus⟩, fun k => by rw [hSelected, List.map_singleton]⟩

theorem wp_queueClaimed {outputRetention : ConversionRetentionClass}
    {Q : AdmissionResult → Local conversion → Shared conversion Call → Prop}
    (h : Charged services p call batch snapshot claimed evicted rolled l tx s)
    (hPending : ∀ db, tx.pending db =
      db.charged batch snapshot claimed evicted evictedAt rolled tx.startedAt)
    (hClass : retentionClassByHours snapshot.outputRetentionHours = some outputRetention)
    (hNext : ∀ result replies s', Q result (.outside replies) s') :
    Wp (discipline services p) call (queueClaimed services batch snapshot outputRetention claimed)
      (fun result => Wp (discipline services p) call (.commit (.done result)) Q) l s := by
  unfold queueClaimed
  simp only [Script.bind_eq, Script.pure_eq]
  refine Wp.clock h.within.safe fun s₁ hRely₁ => ?_
  rw [Script.bind_done]
  have h₁ := h.later hRely₁
  obtain ⟨retentionExpiresAt, hExpiresAt⟩ : ∃ retentionExpiresAt, retentionExpiresAt =
    s₁.now + snapshot.outputRetentionHours * hourMs := ⟨_, rfl⟩
  rw [← hExpiresAt]
  refine wp_statement h₁.within (fun v id hMem => by simp at hMem)
    fun s₂ v₂ l₂ tx₂ hRely₂ _ hDb₂ _ _ hWithin₂ hRan₂ => ?_
  rw [Script.bind_done]
  have hExtends₂ := hRan₂.extends (by decide)
  have h₂ := (h₁.later hRely₂).extends hExtends₂ hWithin₂
  have hFiles₂ : v₂.db.files =
    (s₂.db.evictFiles (evicted.map EvictionCandidate.id) evictedAt).files := by
    rw [hDb₂, hPending]
    exact Database.charged_files
  have hPending₂ : ∀ db, tx₂.pending db =
    (db.charged batch snapshot claimed evicted evictedAt rolled tx.startedAt).changeFiles
      (claimed.map ClaimedFile.id) fun f =>
        { f with status := .queued, expiresAt := retentionExpiresAt } := by
    intro db
    rw [hRan₂.pending, Function.comp_apply, hPending]
    unfold Database.changeFiles
    dsimp only
    rw [Table.modify_congr ((h₁.later hRely₂).finds_claimed hFiles₂)]
  refine wp_statement hWithin₂ (fun v id hMem => by simp at hMem)
    fun s₃ v₃ l₃ tx₃ hRely₃ _ hDb₃ _ _ hWithin₃ hRan₃ => ?_
  rw [Script.bind_done]
  have hExtends₃ := hRan₃.extends (by decide)
  have h₃ := (h₂.later hRely₃).extends hExtends₃ hWithin₃
  unfold require
  split
  · next hCount =>
    rw [Script.bind_done]
    have hMade : v₃.db.batches = (s₃.db.setStatus rolled .expired).batches := by
      rw [hDb₃, hPending₂]
      exact Database.charged_batches
    obtain ⟨hOut, hBatch, hIds⟩ := claimed_batch hMade hCount
    have hPending₃ : ∀ db, tx₃.pending db =
      ((db.charged batch snapshot claimed evicted evictedAt rolled tx.startedAt).changeFiles
        (claimed.map ClaimedFile.id) fun f =>
          { f with status := .queued, expiresAt := retentionExpiresAt }).changeBatches
        [batch.id] fun b => { b with status := .queued, expiresAt := retentionExpiresAt } := by
      intro db
      rw [hRan₃.pending, Function.comp_apply, hPending₂]
      unfold Database.changeBatches
      dsimp only
      rw [Table.modify_congr hIds]
    split
    · exact h₃.wp_fail (by simp)
    · next tierQueue hTier =>
      obtain ⟨a, ha⟩ : ∃ a : Admission, a = ⟨batch, snapshot, outputRetention, tierQueue, claimed,
        tx.startedAt,
        retentionExpiresAt, evicted.map EvictionCandidate.id, evictedAt, rolled⟩ := ⟨_, rfl⟩
      refine wp_statement hWithin₃ (fun _ _ hMem => by cases hMem)
        fun s₄ v₄ l₄ tx₄ hRely₄ _ _ hNow₄ _ hWithin₄ hRan₄ => ?_
      rw [Script.bind_done]
      have hExtends₄ := hRan₄.extends (by decide)
      have h₄ := (h₃.later hRely₄).extends hExtends₄ hWithin₄
      refine wp_finish hWithin₄ fun s₅ hRely₅ hWithin₅ => wp_commit hWithin₅ fun s₆ hRely₆ hTime =>
        ⟨⟨.admission a, fun hAssumes => ?_⟩, fun s₇ _ _ => hNext _ _ s₇⟩
      have h₆ : Charged services p call a.batch a.snapshot a.claimed evicted a.rolled l₄
        tx₄ s₆ := by
        rw [ha]
        exact h₄.later (hRely₅.trans hRely₆)
      have hStarted : a.startedAt = tx₄.startedAt := by
        rw [ha, hExtends₄.startedAt, hExtends₃.startedAt, hExtends₂.startedAt]
      have hEvicted : a.evicted = evicted.map EvictionCandidate.id := by rw [ha]
      have hApply : tx₄.pending s₆.db = a.write services s₆.db := by
        rw [hRan₄.pending, Function.comp_apply, hPending₃, hNow₄, hExtends₃.startedAt,
          hExtends₂.startedAt, ha]
        unfold Admission.write Admission.charge Database.charged
        cases snapshot.dailyFiles <;> rfl
      have hLater₃ := hRely₄.trans (hExtends₄.rely (hRely₅.trans hRely₆))
      have hLater₁ := hRely₂.trans (hExtends₂.rely (hRely₃.trans (hExtends₃.rely hLater₃)))
      obtain ⟨b, hb, hStatus⟩ := hBatch
      refine ⟨rfl, rfl, (hWithin₅.later hRely₆).started, ?_, hApply,
        fun hError => absurd rfl hError, fun _ => ?_, trivial,
        fun r => h₆.held hEvicted hStarted hTime hAssumes⟩
      · refine h₆.allowed hRely₆.inv hEvicted hStarted hTime hAssumes
          ⟨s₁.now, ?_, rely_now hLater₁, ?_⟩ ?_ ?_ ?_
        · rw [← hStarted, ha]
          exact h₁.within.started
        · rw [ha]
          exact hExpiresAt
        · rw [ha]
          exact hClass
        · rw [ha]
          exact hTier
        · rw [ha]
          exact ⟨b, rely_batch hLater₃ h₃.own hb, hStatus⟩
      · refine h₆.seen.checked h₆.call (iff_of_false (fun hError => by cases hError) not_false)
          fun _ id => ?_
        exact h₆.evicted_iff hEvicted rfl hApply
  · exact h₃.wp_fail (by decide)

/-! ## The claim -/

theorem wp_requireAdmissible {maxFileBytes : Nat}
    {Q : Unit → Local conversion → Shared conversion Call → Prop} (hWithin : Within l tx s)
    (hSound : (ledger services p).Sound s) (hUsed : sawIn tx.reads .storageUsed = none)
    (hNext : ∀ s', (discipline services p).Rely l.held s s' → Q () l s') :
    Wp (discipline services p) call (forEach (requireAdmissible maxFileBytes) claimed) Q l s := by
  have hUnseen : ∀ (error : Failure) (s' : Shared conversion Call),
    error ≠ .admission .storageLimitExceeded →
      StorageChecked (s'.entry call tx.startedAt tx.reads tx.answers l.replies
        (some error) s'.db) :=
    fun _ _ hError => storageChecked_of_failed hUsed (by rintro ⟨⟩) fun hSame =>
      hError (Option.some.inj hSame)
  induction claimed generalizing s with
  | nil => exact wp_finish hWithin fun s' hRely _ => hNext s' hRely
  | cons file rest ih =>
    refine Wp.bind hSound ?_
    unfold requireAdmissible require
    simp only [Script.bind_eq]
    split
    · rw [Script.bind_done]
      split
      · refine wp_finish hWithin fun s₁ hRely₁ hWithin₁ => ?_
        exact ih hWithin₁ hRely₁.inv fun s' hRely' => hNext s' (hRely₁.trans hRely')
      · exact wp_fail hWithin fun s' => hUnseen _ s' (by decide)
    · exact wp_fail hWithin fun s' => hUnseen _ s' (by decide)

theorem wp_makeRoom {ready : Database} {Q : Unit → Local conversion → Shared conversion Call → Prop}
    (h : Admitting call batch snapshot claimed l tx s) (hPending : tx.pending = id)
    (hUsed : sawIn tx.reads .storageUsed = none) (hEvictable : sawIn tx.reads .evictable = none)
    (hReady : sawIn tx.reads .claimReady = some ready)
    (hIncoming : ((ready.readyFiles batch.id).map fun f => f.inputBytes.getD 0).sum =
      incomingBytes claimed) (hNext : ∀ evicted evictedAt rolled l' tx' s',
      RoomMade services p call batch snapshot claimed evicted rolled l' tx' s' →
      (∀ db, tx'.pending db =
        (db.evictFiles (evicted.map EvictionCandidate.id) evictedAt).setStatus rolled .expired) →
      Q () l' s') :
    Wp (discipline services p) call (makeRoom batch snapshot claimed) Q l s := by
  unfold makeRoom
  split
  · next storageBytes hStorage =>
      exact wp_evictForIncoming h hStorage hPending hUsed hEvictable hReady hIncoming hNext
  · next hNone =>
    refine wp_finish h.within fun s₁ hRely₁ _ =>
      hNext [] 0 [] l tx s₁ ⟨h.later hRely₁, victims_nil, ?_, ?_, ?_, ?_, ?_⟩
      fun db => ?_
    · exact fun _ hMem => by cases hMem
    · exact fun _ _ _ _ hMem => by cases hMem
    · exact ⟨fun _ => ⟨not_false, rfl, hNone⟩, fun measured hMeasured =>
        by cases hUsed.symm.trans hMeasured⟩
    · exact fun hSome => absurd rfl hSome
    · exact fun storageBytes hStorage => by cases hNone.symm.trans hStorage
    · rw [hPending]
      unfold Database.evictFiles Database.setStatus
      rw [List.map_nil, changeFiles_nil, changeBatches_nil]
      rfl

/-- An admission that has begun, and has locked its subject if the plan caps the storage. -/
structure Claiming (call : Call) (batch : ConversionBatch) (snapshot : EntitlementSnapshot)
    (l : Local conversion) (tx : LocalTx conversion) (s : Shared conversion Call) : Prop where
  within : Within l tx s
  limit : tx.limit = transactionTimeoutMs
  call : ∃ ownership, call.admission = some (batch.id, ownership, snapshot) ∧
    ownership.subject = batch.subject
  born : batch.createdAt ≤ tx.startedAt
  knows : s.db.Knows batch
  subject : snapshot.storageBytes ≠ none → l.held (.subject batch.subject)
  pending : tx.pending = id
  unseen : ∀ name ∈ recordedStatements, sawIn tx.reads name = none

theorem readyFiles_nodup {db : Database} {batchId : Uuid} :
    (((db.readyFiles batchId).map ConversionFile.claimed).map ClaimedFile.id).Nodup := by
  rw [List.map_map]
  refine (orderBy_perm.map ConversionFile.id).nodup_iff.mpr ?_
  exact db.files.nodup.sublist (List.filter_sublist.map _)

theorem mem_readyFiles {db : Database} {batchId : Uuid} {f : ConversionFile} :
    f ∈ db.readyFiles batchId ↔ f ∈ db.files.rows ∧ f.batchId = batchId ∧ f.status = .ready := by
  simp [Database.readyFiles]

theorem wp_claimReadyFiles {outputRetention : ConversionRetentionClass}
    {Q : AdmissionResult → Local conversion → Shared conversion Call → Prop}
    (h : Claiming call batch snapshot l tx s)
    (hClass : retentionClassByHours snapshot.outputRetentionHours = some outputRetention)
    (hNext : ∀ result replies s', Q result (.outside replies) s') :
    Wp (discipline services p) call (claimReadyFiles services batch snapshot outputRetention)
      (fun result => Wp (discipline services p) call (.commit (.done result)) Q) l s := by
  unfold claimReadyFiles
  simp only [Script.bind_eq, Script.pure_eq]
  refine wp_statement h.within (fun v id hMem => by simp at hMem)
    fun s₁ v₁ l₁ tx₁ hRely₁ _ hDb₁ _ _ hWithin₁ hRan₁ => ?_
  rw [Script.bind_done]
  refine wp_statement hWithin₁ (fun v id hMem => by simp at hMem)
    fun s₂ v₂ l₂ tx₂ hRely₂ _ hDb₂ _ _ hWithin₂ hRan₂ => ?_
  rw [Script.bind_done]
  rw [h.pending] at hDb₁
  rw [hRan₁.pending, h.pending] at hDb₂
  change v₁.db = s₁.db at hDb₁
  change v₂.db = s₂.db at hDb₂
  have hPending₂ : tx₂.pending = id := by
    rw [hRan₂.pending, hRan₁.pending, h.pending]
    rfl
  have hUsed : sawIn tx₂.reads .storageUsed = none ∧ sawIn tx₂.reads .evictable = none ∧
      sawIn tx₂.reads .claimReady = some s₂.db := by
    rw [hRan₂.reads, hRan₁.reads, hDb₂]
    simp [-List.append_assoc, sawIn_append, h.unseen .storageUsed (by decide),
      h.unseen .evictable (by decide), h.unseen .claimReady (by decide)]
  obtain ⟨claimed, hClaimed⟩ : ∃ claimed, claimed =
    (s₂.db.readyFiles batch.id).map ConversionFile.claimed := ⟨_, rfl⟩
  beta_reduce
  rw [hDb₂, ← hClaimed]
  split
  · next hNone =>
    refine wp_statement hWithin₂ (fun _ _ hMem => by cases hMem)
      fun s₃ v₃ l₃ tx₃ hRely₃ _ hDb₃ _ _ hWithin₃ hRan₃ => ?_
    rw [Script.bind_done]
    have hUnseen : sawIn tx₃.reads .storageUsed = none := by
      rw [hRan₃.reads, sawIn_append, hUsed.1]
      rfl
    have hReady : sawIn tx₃.reads .claimReady = some s₂.db := by
      rw [hRan₃.reads, sawIn_append, hUsed.2.2]
      rfl
    split
    · refine wp_finish hWithin₃ fun s₄ _ hWithin₄ => wp_commit hWithin₄ fun s₅ hRely₅ _ =>
        ⟨⟨.nothing, fun _ => ?_⟩, fun s₆ _ _ => hNext _ _ s₆⟩
      have hSame : tx₃.pending s₅.db = s₅.db := by
        rw [hRan₃.pending, hPending₂]
        rfl
      refine committing_unchanged (hWithin₄.later hRely₅) hSame
        (storageChecked_of_unclaimed hUnseen rfl
        (not_evicted_of_same hSame) fun _ _ _ hCall ready hSaw => ?_)
      obtain ⟨_, hOwn, _⟩ := h.call
      cases hCall.symm.trans hOwn
      cases hReady.symm.trans hSaw
      rw [hClaimed, List.isEmpty_iff] at hNone
      exact List.map_eq_nil_iff.mp hNone
    · exact wp_fail hWithin₃ fun _ => storageChecked_of_failed hUnseen (by rintro ⟨⟩) (by rintro ⟨⟩)
  · next hSome =>
    have hAdmitting : Admitting call batch snapshot claimed l₂ tx₂ s₂ := by
      have hReady : ∀ c ∈ claimed, ∃ f ∈ s₂.db.readyFiles batch.id, f.claimed = c := by
        intro c hc
        exact List.mem_map.mp (hClaimed ▸ hc)
      refine ⟨hWithin₂, ?_, h.call, ?_, rely_knows hRely₂ (rely_knows hRely₁ h.knows), ?_,
        fun hCapped => ?_, ?_, ?_,
        fun c hc => ?_⟩
      · rw [hRan₂.limit, hRan₁.limit, h.limit]
      · rw [hRan₂.startedAt, hRan₁.startedAt]
        exact h.born
      · obtain ⟨c, hc⟩ := List.exists_mem_of_ne_nil claimed (by simpa using hSome)
        obtain ⟨f, hf, _⟩ := hReady c hc
        obtain ⟨hRow, hBatchId, _⟩ := mem_readyFiles.mp hf
        obtain ⟨b₂, hb₂⟩ := (rely_consistent hRely₂).owned f hRow
        rw [hBatchId] at hb₂
        obtain ⟨b₁, hb₁⟩ := rely_existed hRely₂ (rely_knows hRely₁ h.knows).1 hb₂
        refine hRan₂.keeps _ (hRan₁.takes ?_)
        exact locked_batch (hDb₁ ▸ hb₁)
      · exact hRan₂.keeps _ (hRan₁.keeps _ (h.subject hCapped))
      · simpa using hSome
      · rw [hClaimed]
        exact readyFiles_nodup
      · obtain ⟨f, hf, rfl⟩ := hReady c hc
        obtain ⟨hRow, hBatchId, hStatus⟩ := mem_readyFiles.mp hf
        refine ⟨hRan₂.takes ?_, f, Table.get_of_mem hRow, hStatus, hBatchId, rfl⟩
        rw [hDb₂]
        exact List.mem_map_of_mem hf
    refine Wp.bind hRely₂.inv (wp_requireAdmissible hWithin₂ hRely₂.inv hUsed.1 fun s₃ hRely₃ => ?_)
    refine Wp.bind_inv hRely₃.inv
      (wp_makeRoom (hAdmitting.later hRely₃) hPending₂ hUsed.1 hUsed.2.1 hUsed.2.2 ?_
      fun evicted evictedAt rolled l₄ tx₄ s₄ hRoom hPending₄ hSound₄ => ?_)
    · rw [hClaimed, incomingBytes, List.map_map]
      rfl
    · exact Wp.bind hSound₄ (wp_chargeDailyUsage hRoom hPending₄ fun _ _ _ hCharged hPending₅ =>
        wp_queueClaimed hCharged hPending₅ hClass hNext)

theorem wp_admitClaimed {outputRetention : ConversionRetentionClass} {replies : List Reply}
    {Q : AdmissionResult → Local conversion → Shared conversion Call → Prop}
    (hWithin : Within l tx s) (hOpened : Opened l tx replies s.now transactionTimeoutMs)
    (hCall : ∃ ownership, call.admission = some (batch.id, ownership, snapshot) ∧
      ownership.subject = batch.subject) (hBorn : batch.createdAt ≤ s.now)
    (hKnows : s.db.Knows batch)
    (hClass : retentionClassByHours snapshot.outputRetentionHours = some outputRetention)
    (hNext : ∀ result replies s', Q result (.outside replies) s') :
    Wp (discipline services p) call (admitClaimed services batch snapshot outputRetention)
      (fun result => Wp (discipline services p) call (.commit (.done result)) Q) l s := by
  have hUnseen : ∀ name ∈ recordedStatements, sawIn tx.reads name = none := by
    intro name _
    rw [hOpened.reads]
    rfl
  unfold admitClaimed
  simp only [Script.bind_eq]
  split
  · refine wp_statement hWithin (fun v id hMem => by simp at hMem)
      fun s₁ v₁ l₁ tx₁ hRely₁ _ _ _ _ hWithin₁ hRan₁ => ?_
    refine wp_claimReadyFiles ⟨hWithin₁, hRan₁.limit.trans hOpened.limit, hCall, ?_,
      rely_knows hRely₁ hKnows, fun _ => ?_,
      ?_, fun name hName => ?_⟩ hClass hNext
    · rw [hRan₁.startedAt, hOpened.startedAt]
      exact hBorn
    · exact hRan₁.takes (List.mem_singleton_self _)
    · rw [hRan₁.pending, hOpened.pending]
      rfl
    · rw [(hRan₁.extends (by decide)).sawIn name hName]
      exact hUnseen name hName
  · next hNone =>
    refine wp_claimReadyFiles ⟨hWithin, hOpened.limit, hCall, hOpened.startedAt ▸ hBorn, hKnows,
      fun hCapped => ?_,
      hOpened.pending, hUnseen⟩ hClass hNext
    exact absurd (Option.isSome_iff_ne_none.mpr hCapped) hNone

/-! ## The calls that admit -/

theorem wp_admitReadyFiles {batchId : Uuid} {ownership : BatchOwnership} {replies : List Reply}
    (hCall : call.admission = some (batchId, ownership, snapshot)) :
    Wp (discipline services p) call (admitReadyFiles services batchId ownership snapshot)
      (fun _ l _ => AtRest l)
      (.outside replies) s := by
  unfold admitReadyFiles
  simp only [Script.bind_eq]
  split
  · exact Wp.fail_outside
  · next outputRetention hClass =>
    refine wp_read (by decide) fun s₁ v₁ hRely₁ hDb₁ _ _ => ?_
    rw [Script.bind_done]
    beta_reduce
    rw [hDb₁]
    split
    · exact Wp.fail_outside
    · next batch hFound =>
      have hCons := rely_consistent hRely₁
      obtain ⟨hRow, rfl⟩ := Table.get_eq_some_iff.mp hFound
      refine wp_assertOwnership fun hOwner => wp_require fun _ => ?_
      refine Wp.clock safe_outside fun s₂ hRely₂ => ?_
      rw [Script.bind_done]
      refine wp_require fun _ => wp_transaction (fun _ _ _ _ => Wp.fail_outside)
        fun s₃ l₃ tx₃ hRely₃ hWithin₃ hOpened₃ => ?_
      have hRely := hRely₂.trans hRely₃
      exact wp_admitClaimed hWithin₃ hOpened₃ ⟨ownership, hCall, hOwner.symm⟩
        ((hCons.born batch hRow).trans (rely_now hRely))
          (rely_knows hRely (hCons.knows hFound)) hClass
        fun _ _ _ => atRest_outside _

theorem wp_completeUploads {batchId : Uuid} {ownership : BatchOwnership} {replies : List Reply}
    (hSound : (ledger services p).Sound s) :
    Wp (discipline services p) (.completeUploads batchId ownership snapshot)
      (completeUploads services batchId ownership snapshot) (fun _ l _ => AtRest l)
        (.outside replies) s := by
  unfold completeUploads
  simp only [Script.bind_eq]
  refine Wp.bind_inv hSound (wp_getOwnedBatch.mono fun _ _ s₁ hSound₁ ⟨replies₁, hRest₁⟩ _ => ?_)
  subst hRest₁
  refine wp_read (by decide) fun s₂ v₂ hRely₂ _ _ _ => ?_
  rw [Script.bind_done]
  refine Wp.bind_inv hRely₂.inv (wp_verifyUploads.mono fun _ _ s₃ _ ⟨replies₃, hRest₃⟩ hSound₃ =>
    ?_)
  subst hRest₃
  refine Wp.bind hSound₃ ((wp_admitReadyFiles rfl).mono fun _ _ s₄ _ ⟨replies₄, hRest₄⟩ => ?_)
  subst hRest₄
  exact wp_at_rest fun _ _ => atRest_outside _

end Pixaeron.Conversion
