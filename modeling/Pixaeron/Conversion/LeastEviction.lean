import Pixaeron.Conversion.Runs

/-! # No more eviction than needed

How an admission's evictions compare with the fewest that make room, in the state in which it
lists the results that it may evict.
-/

namespace Pixaeron.Conversion

open Transactions

/-! ## The loop takes the shortest prefix that makes room -/

/-- Of the prefixes of the candidates that make room for the incoming bytes, the shortest. -/
structure ShortestFitting (candidates : List EvictionCandidate) (used incoming cap : Nat)
    (evicted : List EvictionCandidate) : Prop where
  isPrefix : evicted <+: candidates
  fits : used + incoming ≤ cap + freed evicted
  shortest : ∀ shorter, shorter <+: candidates → used + incoming ≤ cap + freed shorter →
    evicted <+: shorter

theorem freed_cons {c : EvictionCandidate} {rest : List EvictionCandidate} :
    freed (c :: rest) = c.size + freed rest := rfl

theorem evictWhile_least {deficit : Int} {candidates shorter : List EvictionCandidate}
    (hPrefix : shorter <+: candidates) (hEnough : deficit ≤ freed shorter) :
    (evictWhile deficit candidates).1 <+: shorter := by
  induction candidates generalizing deficit shorter with
  | nil => exact List.nil_prefix
  | cons c rest ih =>
    by_cases h : 0 < deficit
    · rw [evictWhile_cons h]
      cases shorter with
      | nil =>
        have hNone : (freed [] : Int) = 0 := rfl
        omega
      | cons d more =>
        obtain ⟨rfl, hRest⟩ := List.cons_prefix_cons.mp hPrefix
        rw [freed_cons] at hEnough
        exact (List.prefix_cons_inj d).mpr (ih hRest (by omega))
    · rw [evictWhile_of_nonpos (not_lt.mp h)]
      exact List.nil_prefix

theorem evictWhile_short_iff {deficit : Int} {candidates : List EvictionCandidate} :
    0 < (evictWhile deficit candidates).2 ↔ (freed candidates : Int) < deficit := by
  induction candidates generalizing deficit with
  | nil => rfl
  | cons c rest ih =>
    rw [freed_cons]
    by_cases h : 0 < deficit
    · rw [evictWhile_cons h]
      dsimp only
      rw [ih]
      omega
    · rw [evictWhile_of_nonpos (not_lt.mp h)]
      dsimp only
      omega

theorem shortestFitting_evictWhile {candidates : List EvictionCandidate} {used incoming cap : Nat}
    (hLeft : (evictWhile ((used : Int) + incoming - cap) candidates).2 ≤ 0) :
    ShortestFitting candidates used incoming cap
      (evictWhile ((used : Int) + incoming - cap) candidates).1 := by
  constructor
  · exact evictWhile_prefix
  · rw [evictWhile_left] at hLeft
    omega
  · intro shorter hPrefix hFits
    exact evictWhile_least hPrefix (by omega)

theorem shortestFitting_nil {candidates : List EvictionCandidate} {used incoming cap : Nat}
    (hFits : used + incoming ≤ cap) :
    ShortestFitting candidates used incoming cap [] := by
  constructor
  · exact List.nil_prefix
  · omega
  · exact fun _ _ _ => List.nil_prefix

/-! ## The storage of a subject -/

/-- The bytes of the subject's files that are admitted but not finished. -/
def Database.inFlight (db : Database) (subject : String) (now : Nat) : Nat :=
  db.files.total fun f => if db.stored subject now f ∧
    f.status ≠ .completed then f.inputBytes.getD 0 else 0

def Database.candidates (db : Database) (subject : String) (now : Nat) : List EvictionCandidate :=
  (db.evictable subject now).map ConversionFile.candidate

def Database.incoming (ready : Database) (batchId : Uuid) : Nat :=
  ((ready.readyFiles batchId).map fun f => f.inputBytes.getD 0).sum

theorem sum_map_filter {α : Type} {p : α → Bool} {g : α → Nat} {l : List α} :
    ((l.filter p).map g).sum = (l.map fun a => if p a then g a else 0).sum := by
  induction l with
  | nil => rfl
  | cons a rest ih =>
    cases h : p a <;> simp [h, ih]

theorem Database.storageUsed_split {db : Database} {subject : String} {now : Nat} :
    db.storageUsed subject now = db.inFlight subject now + freed (db.candidates subject now) := by
  have hFreed : freed (db.candidates subject now) = db.files.total fun f =>
      if db.subjectOf f = some subject && f.status = .completed && now < f.expiresAt then
        f.outputBytes.getD 0 else 0 := by
    unfold freed candidates evictable
    rw [List.map_map, (orderBy_perm.map _).sum_eq]
    exact sum_map_filter
  rw [hFreed]
  unfold storageUsed inFlight
  rw [← Table.total_add]
  refine Table.total_congr fun f _ => ?_
  unfold stored ConversionFile.storedBytes
  by_cases hCompleted : f.status = .completed
  · simp [hCompleted]
  · simp [hCompleted]

/-! ## What an admission decides -/

/-- The state in which an admission decides about eviction: where it lists the results, or, if it
finds that the files fit, where it adds up the storage. -/
def decidedIn (e : LogEntry) : Option Database :=
  (e.saw .storageUsed).map fun measured => (e.saw .evictable).getD measured

/-- Between adding up the storage and listing the results, the storage in use has not changed. -/
def UsageSettled (e : LogEntry) (subject : String) : Prop :=
  ∀ measured seen, e.saw .storageUsed = some measured → e.saw .evictable = some seen →
    seen.storageUsed subject e.startedAt = measured.storageUsed subject e.startedAt

/-- An admission that claims its files in one state and decides in another evicts what it needs to
and nothing else, and refuses exactly when that is not enough. -/
structure EvictsLeast (e : LogEntry) (batchId : Uuid) (subject : String) (cap : Nat)
    (ready state : Database) : Prop where
  claims : e.saw .claimReady = some ready
  decides : decidedIn e = some state
  committed : e.error = none → ∃ evicted, ShortestFitting (state.candidates subject e.startedAt)
    (state.storageUsed subject e.startedAt) (ready.incoming batchId) cap evicted ∧
    ∀ id, Evicted e id ↔ id ∈ evicted.map EvictionCandidate.id
  spared : state.storageUsed subject e.startedAt + ready.incoming batchId ≤ cap → ∀ id,
    ¬ Evicted e id
  refused : e.error = some (.admission .storageLimitExceeded) ↔
    cap < state.inFlight subject e.startedAt + ready.incoming batchId
  kept : e.error = some (.admission .storageLimitExceeded) → e.after = e.before

/-- An admission that does not come to decide, or whose transaction is rolled back. -/
structure EvictsNothing (e : LogEntry) (batchId : Uuid) : Prop where
  undecided : decidedIn e = none ∨ e.error = some .rolledBack
  empty : e.error = none → ∀ ready, e.saw .claimReady = some ready → ready.readyFiles batchId = []
  spared : ∀ id, ¬ Evicted e id
  accepted : e.error ≠ some (.admission .storageLimitExceeded)

def EvictsAsNeeded (e : LogEntry) (batchId : Uuid) (subject : String) (cap : Nat) : Prop :=
  (∃ ready state, EvictsLeast e batchId subject cap ready state) ∨ EvictsNothing e batchId

section Entry

variable {services : Services} {p : Policy} {e : LogEntry} {batchId : Uuid}
  {ownership : BatchOwnership}
  {snapshot : EntitlementSnapshot} {cap : Nat}

theorem Legal.not_evicted (h : Legal services p e) (hFailed : e.error ≠ none)
    (id : Uuid) : ¬ Evicted e id :=
  not_evicted_of_same (h.kept hFailed) id

theorem Legal.not_evicted_of_done (h : Legal services p e)
    (hDone : e.error = none → ∀ id, ¬ Evicted e id) (id : Uuid) :
    ¬ Evicted e id := by
  by_cases hError : e.error = none
  · exact hDone hError id
  · exact h.not_evicted hError id

theorem Legal.unmeasured (h : Legal services p e)
    (hCall : e.call.admission = some (batchId, ownership, snapshot))
    (hMeasured : e.saw .storageUsed = none) :
    (∀ id, ¬ Evicted e id) ∧ e.error ≠ some (.admission .storageLimitExceeded) := by
  by_cases hRolled : e.error = some .rolledBack
  · exact ⟨h.not_evicted (by rw [hRolled]; simp), by rw [hRolled]; simp⟩
  · obtain ⟨hAccepted, hDone⟩ := (h.checked hRolled _ _ _ hCall).1 hMeasured
    exact ⟨h.not_evicted_of_done fun hError => (hDone hError).1, hAccepted⟩

theorem Legal.evictsLeast_fits {ready measured : Database} {subject : String}
    (h : Legal services p e) (hMeasured : e.saw .storageUsed = some measured)
    (hReady : e.saw .claimReady = some ready) (hEvictable : e.saw .evictable = none)
    (hFits : measured.storageUsed subject e.startedAt + ready.incoming batchId ≤ cap)
    (hAccepted : e.error ≠ some (.admission .storageLimitExceeded))
    (hSpared : e.error = none → ∀ id, ¬ Evicted e id) :
    EvictsLeast e batchId subject cap ready measured where
  claims := hReady
  decides := by rw [decidedIn, hMeasured, hEvictable]; rfl
  committed hDone := by
    refine ⟨[], shortestFitting_nil hFits, fun id => ?_⟩
    exact iff_of_false (hSpared hDone id) List.not_mem_nil
  spared _ := h.not_evicted_of_done hSpared
  refused := by
    rw [Database.storageUsed_split] at hFits
    exact iff_of_false hAccepted (by omega)
  kept hError := absurd hError hAccepted

/-- A finished check that found a deficit, for a usage that has not changed since. -/
theorem Legal.evictsLeast_exceeds {ready measured seen : Database} {subject : String}
    (h : Legal services p e) (hMeasured : e.saw .storageUsed = some measured)
    (hReady : e.saw .claimReady = some ready) (hSeen : e.saw .evictable = some seen)
    (hSettled : seen.storageUsed subject e.startedAt = measured.storageUsed subject e.startedAt)
    (hExceeds : cap < measured.storageUsed subject e.startedAt + ready.incoming batchId)
    {outcome : List EvictionCandidate × Int}
    (hOutcome : outcome =
      evictWhile ((measured.storageUsed subject e.startedAt : Int) + ready.incoming batchId - cap)
      (seen.candidates subject e.startedAt))
    (hRefuses : 0 < outcome.2 → e.error = some (.admission .storageLimitExceeded))
    (hAccepts : outcome.2 ≤ 0 → e.error ≠ some (.admission .storageLimitExceeded) ∧
      (e.error = none → ∀ id, Evicted e id ↔ id ∈ outcome.1.map EvictionCandidate.id)) :
    EvictsLeast e batchId subject cap ready seen where
  claims := hReady
  decides := by rw [decidedIn, hMeasured, hSeen]; rfl
  committed hDone := by
    have hLeft : outcome.2 ≤ 0 := by
      by_contra hMore
      cases hDone.symm.trans (hRefuses (not_le.mp hMore))
    refine ⟨outcome.1, ?_, (hAccepts hLeft).2 hDone⟩
    rw [hSettled, hOutcome]
    exact shortestFitting_evictWhile (hOutcome ▸ hLeft)
  spared hFits := by
    rw [hSettled] at hFits
    omega
  refused := by
    have hShort : 0 < outcome.2 ↔
      cap < seen.inFlight subject e.startedAt + ready.incoming batchId := by
      rw [hOutcome, evictWhile_short_iff, ← hSettled, Database.storageUsed_split]
      omega
    rw [← hShort]
    constructor
    · intro hError
      by_contra hLeft
      exact (hAccepts (not_lt.mp hLeft)).1 hError
    · exact hRefuses
  kept hError := h.kept (by rw [hError]; simp)

theorem Legal.evictsAsNeeded (h : Legal services p e)
    (hCall : e.call.admission = some (batchId, ownership, snapshot))
    (hCap : snapshot.storageBytes = some cap) (hSettled : UsageSettled e ownership.subject) :
    EvictsAsNeeded e batchId ownership.subject cap := by
  by_cases hRolled : e.error = some .rolledBack
  · refine .inr ⟨.inr hRolled, fun hDone => ?_, h.not_evicted (by rw [hRolled]; simp),
      by rw [hRolled]; simp⟩
    cases hDone.symm.trans hRolled
  · obtain ⟨hUnseen, hSeen⟩ := h.checked hRolled _ _ _ hCall
    cases hMeasured : e.saw .storageUsed with
    | none =>
      obtain ⟨hSpared, hAccepted⟩ := h.unmeasured hCall hMeasured
      have hEmpty := fun hError => ((hUnseen hMeasured).2 hError).2 (by rw [hCap]; simp)
      exact .inr ⟨.inl (by rw [decidedIn, hMeasured]; rfl), hEmpty, hSpared, hAccepted⟩
    | some measured =>
      obtain ⟨ready, storageBytes, hReady, hStorage, hFits, hExceeds⟩ := hSeen measured hMeasured
      cases hCap.symm.trans hStorage
      by_cases hRoom : measured.storageUsed ownership.subject e.startedAt +
        ready.incoming batchId ≤ cap
      · have hDeficit : (measured.storageUsed ownership.subject e.startedAt : Int) +
          ready.incoming batchId - cap ≤ 0 := by
          omega
        obtain ⟨hEvictable, hAccepted, hSpared⟩ := hFits hDeficit
        exact .inl ⟨ready, measured,
          h.evictsLeast_fits hMeasured hReady hEvictable hRoom hAccepted hSpared⟩
      · have hDeficit : 0 < (measured.storageUsed ownership.subject e.startedAt : Int) +
          ready.incoming batchId - cap := by
          omega
        obtain ⟨seen, hEvictable, hRefuses, hAccepts⟩ := hExceeds hDeficit
        exact .inl ⟨ready, seen, h.evictsLeast_exceeds hMeasured hReady hEvictable
          (hSettled measured seen hMeasured hEvictable)
          (not_le.mp hRoom) rfl hRefuses hAccepts⟩

theorem Legal.uncapped (h : Legal services p e)
    (hCall : e.call.admission = some (batchId, ownership, snapshot))
    (hCap : snapshot.storageBytes = none) :
    (∀ id, ¬ Evicted e id) ∧ e.error ≠ some (.admission .storageLimitExceeded) := by
  cases hMeasured : e.saw .storageUsed with
  | none => exact h.unmeasured hCall hMeasured
  | some measured =>
    by_cases hRolled : e.error = some .rolledBack
    · exact ⟨h.not_evicted (by rw [hRolled]; simp), by rw [hRolled]; simp⟩
    · obtain ⟨_, _, _, hStorage, _⟩ := (h.checked hRolled _ _ _ hCall).2 measured hMeasured
      cases hCap.symm.trans hStorage

end Entry

section Run

variable {services : Services} {e : LogEntry} {now : Nat} {w : World conversion Call Outcome}
  {batchId : Uuid}
  {ownership : BatchOwnership} {snapshot : EntitlementSnapshot}

/-- An admission evicts no more than it needs to, provided that the storage in use does not change
between the statement that adds it up and the statement that lists the results. -/
theorem admission_evicts_least (h : World.Leads (system services) (start now) w)
    (he : e ∈ w.shared.history) (hCall : e.call.admission = some (batchId, ownership, snapshot))
    (hSettled : UsageSettled e ownership.subject) :
    (∀ cap, snapshot.storageBytes = some cap → EvictsAsNeeded e batchId ownership.subject cap) ∧
      (snapshot.storageBytes = none → (∀ id, ¬ Evicted e id) ∧
        e.error ≠ some (.admission .storageLimitExceeded)) := by
  have hLegal := (system_legal h e he).1
  exact ⟨fun cap hCap => hLegal.evictsAsNeeded hCall hCap hSettled, hLegal.uncapped hCall⟩

end Run

namespace Sample

def secondBatch : Uuid := ⟨"b2", by decide, by decide⟩

def secondFile : Uuid := ⟨"f2", by decide, by decide⟩

def thirdBatch : Uuid := ⟨"b3", by decide, by decide⟩

def thirdFile : Uuid := ⟨"f3", by decide, by decide⟩

/-- A batch of one file is created and the upload is found. -/
def uploads (sid : Nat) (batch file : Uuid) (key : String) (bytes : Nat) :
    List (Action conversion Call) :=
  [.spawn sid (.createBatch ⟨"alice", false, key, 1, .lossy, .medium, none⟩ plan ⟨batch, [file],
    ""⟩), .run sid, .spawn (sid + 1) (.completeUploads batch alice plan), .run (sid + 1),
    .run (sid + 1), .answer (sid + 1) (.headOf file (some (some ⟨bytes, "etag", none⟩)))]

def converts (sid : Nat) (batch file : Uuid) (bytes : Nat) : List (Action conversion Call) :=
  [.spawn sid (.applyEvent ⟨file, batch, 1, .result (.completed
      ⟨.saved, "jpeg", 1, outputObjectKey batch file 1, bytes, "sum", "jpeg", 4, 4, none⟩)⟩),
    .answer sid (.head (some ⟨bytes, "etag", some "sum"⟩))] ++ runs sid 7

/-- A result of 30 bytes, 60 bytes in flight, and an admission of 30 more that has added up the
storage. -/
def measuredRun : List (Action conversion Call) :=
  uploads 0 batchId fileId "key" 40 ++ runs 1 14 ++ converts 2 batchId fileId 30 ++
    uploads 3 secondBatch secondFile "second" 60 ++ runs 4 14 ++
      uploads 6 thirdBatch thirdFile "third" 30 ++ runs 7 8

/-- The admission goes on at once. -/
def settledRun : List (Action conversion Call) := measuredRun ++ runs 7 11

/-- First the 60 bytes in flight become a result of 5. -/
def unsettledRun : List (Action conversion Call) :=
  measuredRun ++ converts 5 secondBatch secondFile 5 ++ runs 7 11

structure EvictionSummary where
  admission : Option (Uuid × String × EntitlementSnapshot)
  committed : Bool
  measured : Option Nat
  listed : Option Nat
  incoming : Option Nat
  before : Option ConversionFileStatus
  after : Option ConversionFileStatus
deriving DecidableEq

def evictionSummary (e : LogEntry) : EvictionSummary where
  admission := e.call.admission.map fun a => (a.1, a.2.1.subject, a.2.2)
  committed := e.error.isNone
  measured := (e.saw .storageUsed).map (·.storageUsed "alice" e.startedAt)
  listed := (e.saw .evictable).map (·.storageUsed "alice" e.startedAt)
  incoming := (e.saw .claimReady).map (·.incoming thirdBatch)
  before := (e.before.files.get fileId).map ConversionFile.status
  after := (e.after.files.get fileId).map ConversionFile.status

/-- The admission of the third batch as the last entry of a run. -/
structure ThirdAdmission (w : World conversion Call Outcome) (e : LogEntry)
    (ownership : BatchOwnership) (ready measured listed : Database) (used left : Nat) : Prop where
  reached : World.Leads (system services) (start 0) w
  entry : e ∈ w.shared.history
  call : e.call.admission = some (thirdBatch, ownership, plan)
  owner : ownership.subject = "alice"
  done : e.error = none
  claims : e.saw .claimReady = some ready
  measures : e.saw .storageUsed = some measured
  lists : e.saw .evictable = some listed
  incoming : ready.incoming thirdBatch = 30
  used : measured.storageUsed "alice" e.startedAt = used
  left : listed.storageUsed "alice" e.startedAt = left
  evicts : Evicted e fileId

theorem thirdAdmission_of_run {actions : List (Action conversion Call)} {used left : Nat}
    (h : ((World.run (system services) (start 0) actions).map
      fun w => w.shared.history.getLast?.map evictionSummary) =
      some (some ⟨some (thirdBatch, "alice", plan), true, some used, some left, some 30,
        some .completed, some .expired⟩)) :
    ∃ w e ownership ready measured listed,
      ThirdAdmission w e ownership ready measured listed used left := by
  obtain ⟨w, hW, h⟩ := Option.map_eq_some_iff.mp h
  obtain ⟨e, hLast, h⟩ := Option.map_eq_some_iff.mp h
  simp only [evictionSummary, EvictionSummary.mk.injEq, Option.map_eq_some_iff, Prod.mk.injEq,
    Option.isNone_iff_eq_none] at h
  obtain ⟨⟨⟨_, ownership, _⟩, hCall, rfl, hOwner, rfl⟩, hDone, ⟨measured, hMeasured, hUsed⟩,
    ⟨listed, hListed, hLeft⟩,
    ⟨ready, hReady, hIncoming⟩, ⟨f, hGet, hCompleted⟩, f', hGet', hExpired⟩ := h
  exact ⟨w, e, ownership, ready, measured, listed, World.leads_of_run hW,
    List.mem_of_getLast? hLast, hCall, hOwner, hDone, hReady,
    hMeasured, hListed, hIncoming, hUsed, hLeft, f, f', hGet, hCompleted, hGet', hExpired⟩

end Sample

theorem admission_evicts_least_settled : ∃ w e ownership ready measured listed,
    Sample.ThirdAdmission w e ownership ready measured listed 90 90 ∧
    EvictsAsNeeded e Sample.thirdBatch ownership.subject 100 := by
  obtain ⟨w, e, ownership, ready, measured, listed, h⟩ :=
    @Sample.thirdAdmission_of_run Sample.settledRun 90 90 (by decide +kernel)
  refine ⟨w, e, ownership, ready, measured, listed, h, ?_⟩
  refine (admission_evicts_least h.reached h.entry h.call
    fun measured' listed' hMeasured hListed => ?_).1 100 rfl
  cases h.measures.symm.trans hMeasured
  cases h.lists.symm.trans hListed
  rw [h.owner, h.left, h.used]

/-- A result that finishes between the two statements lowers the storage in use to 35 bytes, the 30
incoming bytes fit under the cap of 100, and an older result is evicted all the same. -/
theorem admission_evicts_unneeded : ∃ w e ownership ready measured listed,
    Sample.ThirdAdmission w e ownership ready measured listed 90 35 ∧
    ¬ EvictsAsNeeded e Sample.thirdBatch ownership.subject 100 := by
  obtain ⟨w, e, ownership, ready, measured, listed, h⟩ :=
    @Sample.thirdAdmission_of_run Sample.unsettledRun 90 35 (by decide +kernel)
  refine ⟨w, e, ownership, ready, measured, listed, h, ?_⟩
  rintro (⟨ready', state, hLeast⟩ | hNothing)
  · have hState : state = listed := by
      have hDecides := hLeast.decides
      rw [decidedIn, h.measures, h.lists] at hDecides
      exact (Option.some.inj hDecides).symm
    cases h.claims.symm.trans hLeast.claims
    refine hLeast.spared ?_ _ h.evicts
    rw [hState, h.owner, h.left, h.incoming]
    decide
  · exact hNothing.spared _ h.evicts

end Pixaeron.Conversion
