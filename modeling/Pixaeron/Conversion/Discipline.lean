import Pixaeron.Transactions.Rules
import Pixaeron.Conversion.Queues

/-! # The discipline of the conversion system

The ledger of the system, what a lock holder may rely on, and what a commit or an answer owes to
the others.
-/

namespace Pixaeron.Conversion

open Transactions

/-- Nobody sends the request of an outbox row that another transaction has locked. -/
def SparesRow : Resource → Shared conversion Call → Shared conversion Call → Prop
  | .outbox id, s, s' =>
    ∀ row, s.db.outbox.get id = some row →
      s'.ext.sent row.payload.fileId = s.ext.sent row.payload.fileId
  | _, _, _ => True

/-- The request of a row nobody works on has not been sent, unless a drain lost it. -/
def FreeRow (p : Policy) : Resource → Shared conversion Call → Prop
  | .outbox id, s =>
    p.clean = true → s.ext.phantomSends = 0 → ∀ row, s.db.outbox.get id = some row →
    s.ext.sent row.payload.fileId = 0
  | _, _ => True

variable (services : Services) (p : Policy)

def ledger : Ledger conversion Call where
  genesis := .initial
  Legal := Legal services p
  Respects := Respects p
  Moves := Grows
  Spares := SparesRow
  Traffic := Traffic p
  Free := FreeRow p
  Assume := p.Assumes
  moves_refl := Grows.refl
  moves_trans _ _ _ := Grows.trans
  spares_refl r s := by
    cases r <;> first | exact trivial | exact fun _ _ => rfl
  spares_trans r s₁ s₂ s₃ es hSince hRespects h h' := by
    cases r with
    | outbox id =>
      intro row hRow
      have hStill : s₂.db.outbox.get id = some row :=
        hSince.2.preserves (P := fun (db : Database) _ => db.outbox.get id = some row)
          (fun _ _ _ _ hSame => hSame)
          (fun e he _ hHere => hRespects e he row hHere) hRow
      exact (h' row hStill).trans (h row hRow)
    | _ => trivial

abbrev discipline : Discipline conversion Call := (ledger services p).discipline

variable {services p} {call : Call} {s s' : Shared conversion Call} {held : Resource → Prop}

theorem sound_start (now : Nat) : (ledger services p).Sound (start now).shared :=
  ⟨.rest (Nat.zero_le _), traffic_initial now⟩

theorem free_start (now : Nat) (r : Resource) : FreeRow p r (start now).shared := by
  cases r <;> first | exact trivial | exact fun _ _ _ h => by cases h

theorem consistent_of_reached {db : Database} {t : Nat}
    (h : (ledger services p).Reached db t) : Consistent db t :=
  h.holds (consistent_initial 0) (fun _ _ _ hTime hCons => hCons.later hTime) fun _ hLegal hCons =>
    hCons.step hLegal

theorem Sound.consistent (h : (ledger services p).Sound s) : Consistent s.db s.now :=
  consistent_of_reached h.reached

/-! ## What a lock holder relies on -/

/-- The identifier of the batch is taken, and if there is such a row it comes from the batch. -/
def Database.Knows (db : Database) (b : ConversionBatch) : Prop :=
  b.id ∈ db.issued ∧ ∀ b', db.batches.get b.id = some b' → BatchStep b b'

theorem Consistent.knows {db : Database} {now : Nat} {id : Uuid} {b : ConversionBatch}
    (h : Consistent db now) (hGet : db.batches.get id = some b) : db.Knows b := by
  refine ⟨h.issuedBatches b (Table.mem_of_get hGet), fun b' hGet' => ?_⟩
  rw [Table.key_of_get hGet, hGet, Option.some.injEq] at hGet'
  exact hGet' ▸ .refl b

theorem Legal.knows {e : LogEntry} {b : ConversionBatch} (h : Legal services p e)
    (hKnows : e.before.Knows b) : e.after.Knows b := by
  refine ⟨h.issued hKnows.1, fun b₂ hb₂ => ?_⟩
  rcases h.batch_origin hb₂ with ⟨b₁, hb₁, hStep⟩ | ⟨_, _, _, _, drawn, hAllowed, _, hId, _⟩
  · exact (hKnows.2 b₁ hb₁).trans hStep
  · obtain ⟨_, _, _, _, _, hBatch, _⟩ := hAllowed
    simp only [Database.acceptsBatch, Bool.and_eq_true, decide_eq_true_eq] at hBatch
    exact absurd (hId ▸ hKnows.1) hBatch.1

section Rely

variable (h : (discipline services p).Rely held s s')

include h

theorem rely_now : s.now ≤ s'.now := Ledger.rely_now h

theorem rely_grows : Grows s.ext s'.ext := Ledger.rely_moves h

theorem rely_consistent : Consistent s'.db s'.now := Sound.consistent h.inv

theorem rely_preserves {P : Database → Prop}
    (hStep : ∀ e, Legal services p e → Consistent e.before e.endedAt → e.endedAt ≤ s'.now →
      s.now ≤ e.endedAt →
      (∀ r, held r → Respects p r e) → P e.before → P e.after) (hStart : P s.db) : P s'.db := by
  obtain ⟨⟨es, hHistory, hPath⟩, _⟩ := h.evolves
  have hNew : s'.history.drop s.history.length = es := by simp [hHistory]
  refine hPath.preserves (P := fun (db : Database) (_ : Nat) => P db) (fun _ _ _ _ hSame => hSame)
    (fun e he hLegal hHere => ?_) hStart
  refine hStep e hLegal ?_ (hPath.endedAt e he).2 (hPath.endedAt e he).1 (fun r hr => ?_) hHere
  · exact consistent_of_reached (Ledger.reached_entries (Ledger.Sound.reached h.before) hPath e he)
  · exact (h.keeps r hr).1 e (hNew ▸ he)

theorem rely_file {id : Uuid} (hHeld : held (.file id)) {f : ConversionFile}
    (hGet : s.db.files.get id = some f) :
    s'.db.files.get id = some f :=
  rely_preserves h (P := fun db => db.files.get id = some f)
    (fun _ _ _ _ _ hRespects hHere => hRespects _ hHeld f hHere) hGet

theorem rely_batch {id : Uuid} (hHeld : held (.batch id)) {b : ConversionBatch}
    (hGet : s.db.batches.get id = some b) :
    s'.db.batches.get id = some b :=
  rely_preserves h (P := fun db => db.batches.get id = some b)
    (fun _ _ _ _ _ hRespects hHere => (hRespects _ hHeld b hHere).1) hGet

theorem rely_usage {key : String × Nat} (hHeld : held (.usage key)) :
    s'.db.usage.get key = s.db.usage.get key :=
  rely_preserves h (P := fun db => db.usage.get key = s.db.usage.get key)
    (fun _ _ _ _ _ hRespects hHere => (hRespects _ hHeld).trans hHere) rfl

theorem rely_outbox {id : Nat} (hHeld : held (.outbox id)) {row : OutboxEvent}
    (hGet : s.db.outbox.get id = some row) :
    s'.db.outbox.get id = some row :=
  rely_preserves h (P := fun db => db.outbox.get id = some row)
    (fun _ _ _ _ _ hRespects hHere => hRespects _ hHeld row hHere) hGet

theorem rely_issued {id : Uuid} (hIssued : id ∈ s.db.issued) : id ∈ s'.db.issued :=
  rely_preserves h (P := fun db => id ∈ db.issued)
    (fun _ hLegal _ _ _ _ hHere => hLegal.issued hHere) hIssued

theorem rely_sent {id : Nat} (hHeld : held (.outbox id)) {row : OutboxEvent}
    (hGet : s.db.outbox.get id = some row) :
    s'.ext.sent row.payload.fileId = s.ext.sent row.payload.fileId :=
  (h.keeps _ hHeld).2 row hGet

theorem rely_knows {b : ConversionBatch} (hKnows : s.db.Knows b) : s'.db.Knows b :=
  rely_preserves h (P := fun db => db.Knows b)
    (fun _ hLegal _ _ _ _ hHere => hLegal.knows hHere) hKnows

theorem rely_born {id : Uuid} {b' : ConversionBatch} (hGet' : s'.db.batches.get id = some b') :
    (∃ b, s.db.batches.get id = some b ∧ BatchStep b b') ∨ s.now ≤ b'.createdAt := by
  cases hGet : s.db.batches.get id with
  | some b =>
    have hKnows : s.db.Knows b := (Sound.consistent h.before).knows hGet
    exact .inl ⟨b, rfl, (rely_knows h hKnows).2 b' (Table.key_of_get hGet ▸ hGet')⟩
  | none =>
    refine .inr (rely_preserves h (P := fun db => ∀ b,
      db.batches.get id = some b → s.now ≤ b.createdAt)
      (fun e hLegal _ _ hSince _ hHere b₂ hb₂ => ?_)
        (fun b hb => by cases hGet.symm.trans hb) b' hGet')
    rcases hLegal.batch_origin hb₂ with ⟨b₁, hb₁, hStep⟩ | ⟨_, _, _, _, _, _, _, _, hNew⟩
    · exact hStep.createdAt ▸ hHere b₁ hb₁
    · rw [hNew]
      exact hSince

theorem rely_all_files {id : Uuid} {R : ConversionFile → Prop}
    (hStep : ∀ f f', FileStep f f' → R f → R f') (hIssued : id ∈ s.db.issued)
    (hAll : ∀ f ∈ s.db.files.rows, f.batchId = id → R f) :
    ∀ f ∈ s'.db.files.rows, f.batchId = id → R f := by
  have hBoth : id ∈ s'.db.issued ∧ ∀ f ∈ s'.db.files.rows, f.batchId = id → R f := by
    refine rely_preserves h (P := fun db => id ∈ db.issued ∧ ∀ f ∈ db.files.rows,
      f.batchId = id → R f)
      (fun e hLegal _ _ _ _ hHere => ⟨hLegal.issued hHere.1, fun f' hf' hId => ?_⟩) ⟨hIssued, hAll⟩
    rcases hLegal.file_origin (Table.get_of_mem hf') with ⟨f, hGet, hFile⟩ |
      ⟨_, _, _, _, drawn, hAllowed, _, _, hNew⟩
    · exact hStep f f' hFile (hHere.2 f (Table.mem_of_get hGet) (hFile.batchId ▸ hId))
    · obtain ⟨_, _, _, _, _, hBatch, _⟩ := hAllowed
      simp only [Database.acceptsBatch, Bool.and_eq_true, decide_eq_true_eq] at hBatch
      rw [hNew] at hId
      exact absurd ((show drawn.batchId = id from hId) ▸ hHere.1) hBatch.1
  exact hBoth.2

theorem rely_storage {subject : String} (hHeld : held (.subject subject))
    (hCapped : p.cap subject ≠ none) (t : Nat) :
    s'.db.storageUsed subject t ≤ s.db.storageUsed subject t :=
  rely_preserves h (P := fun db => db.storageUsed subject t ≤ s.db.storageUsed subject t)
    (fun _ _ _ _ _ hRespects hHere => ((hRespects _ hHeld).2 hCapped t).trans hHere) le_rfl

theorem rely_existed {id : Uuid} {b' : ConversionBatch} (hIssued : id ∈ s.db.issued)
    (hGet' : s'.db.batches.get id = some b') :
    ∃ b, s.db.batches.get id = some b := by
  by_contra hNone
  have hStart : s.db.batches.get id = none := by
    cases hGet : s.db.batches.get id with
    | none => rfl
    | some b => exact absurd ⟨b, hGet⟩ hNone
  have hBoth : id ∈ s'.db.issued ∧ s'.db.batches.get id = none := by
    refine rely_preserves h (P := fun db => id ∈ db.issued ∧ db.batches.get id = none)
      (fun e hLegal _ _ _ _ hHere => ?_)
      ⟨hIssued, hStart⟩
    refine ⟨hLegal.issued hHere.1, ?_⟩
    cases hAfter : e.after.batches.get id with
    | none => rfl
    | some b =>
      rcases hLegal.batch_origin hAfter with ⟨b₀, hb₀, _⟩ | ⟨_, _, _, _, drawn, hAllowed, _, hId, _⟩
      · cases hHere.2.symm.trans hb₀
      · obtain ⟨_, _, _, _, _, hAccepts, _⟩ := hAllowed
        simp only [Database.acceptsBatch, Bool.and_eq_true, decide_eq_true_eq] at hAccepts
        exact absurd (hId ▸ hHere.1) hAccepts.1
  cases hBoth.2.symm.trans hGet'

theorem rely_outdated {event : WorkerEvent}
    (hOutdated : event.fileId ∈ s.db.issued ∧ s.db.Outdated event) :
    event.fileId ∈ s'.db.issued ∧ s'.db.Outdated event :=
  rely_preserves h (P := fun db => event.fileId ∈ db.issued ∧ db.Outdated event)
    (fun _ hLegal _ _ _ _ hHere => ⟨hLegal.issued hHere.1, hHere.2.step hLegal hHere.1⟩) hOutdated

end Rely

/-- Recording an entry leaves the queues as they are. -/
theorem rely_grows_record {e : LogEntry} (h : (discipline services p).Rely held (s.record e) s') :
    Grows s.ext s'.ext :=
  Ledger.rely_moves h

/-! ## What a commit owes -/

/-- The entry records the commit, and whoever records it holds its footprint. -/
structure Committing (services : Services) (p : Policy) (held : Resource → Prop)
    (s : Shared conversion Call) (e : LogEntry) (c : Commit) : Prop where
  before : e.before = s.db
  endedAt : e.endedAt = s.now
  started : e.startedAt ≤ s.now
  allowed : c.Allowed services p e
  apply : e.after = c.apply services s.db
  kept : e.error ≠ none → e.after = s.db
  checked : e.error ≠ some .rolledBack → StorageChecked e
  backed : c.Backed p s.ext s.db
  held : ∀ r, c.footprint p e r → held r

theorem storageChecked_of_call {e : LogEntry} (h : e.call.admission = none) : StorageChecked e := by
  intro batchId ownership snapshot hCall
  cases h.symm.trans hCall

theorem not_evicted_of_same {e : LogEntry} (h : e.after = e.before)
    (id : Uuid) : ¬ Evicted e id := by
  rintro ⟨f, f', hGet, hCompleted, hGet', hExpired⟩
  rw [h, hGet, Option.some.injEq] at hGet'
  cases hCompleted.symm.trans (hGet' ▸ hExpired)

/-- A transaction that commits without having measured the storage, and has claimed nothing. -/
theorem storageChecked_of_unclaimed {e : LogEntry} (h : e.saw .storageUsed = none)
    (hDone : e.error = none) (hStill : ∀ id, ¬ Evicted e id)
    (hNothing : ∀ batchId ownership snapshot,
      e.call.admission = some (batchId, ownership, snapshot) →
      ∀ ready, e.saw .claimReady = some ready → ready.readyFiles batchId = []) :
      StorageChecked e := by
  intro batchId ownership snapshot hCall
  constructor
  · exact fun _ =>
      ⟨by simp [hDone], fun _ => ⟨hStill, fun _ => hNothing batchId ownership snapshot hCall⟩⟩
  · intro measured hSaw
    cases h.symm.trans hSaw

theorem storageChecked_of_failed {e : LogEntry} (h : e.saw .storageUsed = none)
    (hFailed : e.error ≠ none) (hError : e.error ≠ some (.admission .storageLimitExceeded)) :
    StorageChecked e := by
  intro batchId ownership snapshot hCall
  constructor
  · exact fun _ => ⟨hError, fun hDone => absurd hDone hFailed⟩
  · intro measured hSaw
    cases h.symm.trans hSaw

variable {e : LogEntry} {c : Commit}

theorem Committing.legal (h : Committing services p held s e c) : Legal services p e where
  started := h.endedAt ▸ h.started
  commit := ⟨c, h.allowed, h.before ▸ h.apply⟩
  kept hError := h.before ▸ h.kept hError
  checked := h.checked

theorem Committing.traffic (h : Committing services p held s e c)
    (hSound : (ledger services p).Sound s) :
    Traffic p (s.record e) :=
  hSound.2.record (Sound.consistent hSound) h.before h.endedAt h.legal h.allowed
    (h.before ▸ h.apply) h.backed

/-- A row that was free and is still there is free. -/
theorem Committing.free (h : Committing services p held s e c)
    (hSound : (ledger services p).Sound s) {r : Resource} (hFree : FreeRow p r s) :
    FreeRow p r (s.record e) := by
  cases r with
  | outbox id =>
    intro hClean hNone row hRow
    have hCons : Consistent e.before e.endedAt := by
      rw [h.before, h.endedAt]
      exact Sound.consistent hSound
    have hMem := Table.mem_of_get hRow
    have hId := Table.key_of_get hRow
    rcases h.legal.row_origin hCons hMem with ⟨old, hOld, hSame, hPayload⟩ | ⟨hAdmits, _⟩
    · rw [← hPayload]
      refine hFree hClean hNone old ?_
      rw [← hId, ← hSame, ← h.before]
      exact Table.get_of_mem hOld
    · -- a file that is only now admitted was READY, so nothing has been sent for it
      obtain ⟨_, ⟨f, _, hGet, hReady, _⟩, _⟩ := hAdmits
      refine List.countP_eq_zero.mpr fun m hm hFile => ?_
      obtain ⟨e', he', hPast⟩ := hSound.2.requests m hm
      have hRank :=
        ((hSound.2.past e' he' _ hPast).2.2 f (by rw [of_decide_eq_true hFile, ← h.before, hGet])).2
      rw [hReady] at hRank
      exact absurd hRank (by decide)
  | _ => trivial

theorem Committing.guarantee (h : Committing services p held s e c)
    (hSound : (ledger services p).Sound s) (hAssumes : p.Assumes e) :
    (discipline services p).Guarantee held s (s.record e) := by
  refine Ledger.guarantee_record hSound h.before h.endedAt h.legal (h.traffic hSound)
    (fun r hr => ?_) (fun r _ => ?_)
    fun r _ => h.free hSound
  · refine Commit.respects ?_ h.allowed (h.before ▸ h.apply) hAssumes fun hTouches =>
      hr (h.held r hTouches)
    rw [h.before, h.endedAt]
    exact Sound.consistent hSound
  · cases r <;> first | exact trivial | exact fun _ _ => rfl

theorem commits (h : p.Assumes e → Committing services p held s e c)
    (hSound : (ledger services p).Sound s) (hOutbox : ∀ id, ¬ held (.outbox id))
    {Next : Shared conversion Call → Prop}
    (hNext : (discipline services p).Rely (fun _ => False) s (s.record e) → Next (s.record e)) :
    Commits (discipline services p) held s e Next := by
  intro hAssumes
  have hGuarantee := (h hAssumes).guarantee hSound hAssumes
  refine ⟨hGuarantee, fun r hr => ?_, hNext (hGuarantee.rely_outside hSound)⟩
  cases r with
  | outbox id => exact absurd hr (hOutbox id)
  | _ => trivial

theorem committing_nothing {error : Option Failure} {startedAt : Nat}
    {reads : List (Statement × Database)} {answers replies : List Reply}
    (hStarted : startedAt ≤ s.now) (hChecked : error ≠ some .rolledBack →
      StorageChecked (s.entry call startedAt reads answers replies error s.db)) :
    Committing services p held s (s.entry call startedAt reads answers replies error s.db)
      .nothing where
  before := rfl
  endedAt := rfl
  started := hStarted
  allowed := trivial
  apply := rfl
  kept _ := rfl
  checked := hChecked
  backed := trivial
  held _ h := h.elim

/-! ## Inside a transaction -/

/-- The session is in the transaction `tx` and holds no outbox row. -/
structure Within (l : Local conversion) (tx : LocalTx conversion)
    (s : Shared conversion Call) : Prop where
  opened : l.tx = some tx
  started : tx.startedAt ≤ s.now
  noOutbox : ∀ id, ¬ l.held (.outbox id)

section Within

variable {l : Local conversion} {tx : LocalTx conversion}

theorem Within.later (h : Within l tx s) (hRely : (discipline services p).Rely l.held s s') :
    Within l tx s' :=
  ⟨h.opened, h.started.trans (rely_now hRely), h.noOutbox⟩

theorem Within.undoable (h : Within l tx s) (hSound : (ledger services p).Sound s) {error : Failure}
    (hChecked : error ≠ .rolledBack →
      StorageChecked (s.entry call tx.startedAt tx.reads tx.answers l.replies (some error) s.db)) :
    Undoable (discipline services p) call l tx error s := by
  intro hAssumes
  have hCommitting : Committing services p l.held s
      (s.entry call tx.startedAt tx.reads tx.answers l.replies (some error) s.db) .nothing :=
    committing_nothing h.started fun hError => hChecked fun hSame => hError (by rw [hSame])
  refine ⟨hCommitting.guarantee hSound hAssumes, fun r hr => ?_⟩
  cases r with
  | outbox id => exact absurd hr (h.noOutbox id)
  | _ => trivial

theorem Within.safe (h : Within l tx s) : Safe (discipline services p) call l s := by
  intro s' hRely tx' hTx'
  cases h.opened.symm.trans hTx'
  exact (h.later hRely).undoable hRely.inv fun hNot => absurd rfl hNot

theorem within_opened {replies : List Reply} {limit : Nat} :
    Within ((Local.outside replies).opened s.now limit) ⟨s.now, limit, id, [], []⟩ s :=
  ⟨rfl, le_rfl, fun _ h => h⟩

theorem Within.ran (h : Within l tx s) {name : Statement} {locks : View conversion → List Resource}
    {write : View conversion → Database → Database} {v : View conversion}
    (hLocks : ∀ id, .outbox id ∉ locks v) :
    Within (l.ran tx name locks write v)
      { tx with pending := write v ∘ tx.pending, reads := tx.reads ++ [(name, v.db)] } s :=
  ⟨rfl, h.started, fun id hHeld => hHeld.elim (h.noOutbox id) (hLocks id)⟩

end Within

/-! ## Outside a transaction -/

section

variable {α : Type} {Q : α → Local conversion → Shared conversion Call → Prop}
  {replies : List Reply}
  {name : Statement} {locks : View conversion → List Resource}
    {write : View conversion → Database → Database}
  {next : View conversion → Script conversion α}

def statementEntry (call : Call) (replies : List Reply) (name : Statement)
    (s : Shared conversion Call) (after : Database) : LogEntry :=
  s.entry call s.now [(name, s.db)] [] replies none after

theorem wp_autocommit (hLocks : ∀ v id, .outbox id ∉ locks v)
    (h : ∀ s' v, (discipline services p).Rely (fun _ => False) s s' → v.db = s'.db →
      v.now = s'.now → v.clock = s'.now →
      (∃ c, Committing services p (· ∈ locks v) s'
        (statementEntry call replies name s' (write v s'.db)) c) ∧
        ((discipline services p).Rely (fun _ => False) s'
            (s'.record (statementEntry call replies name s' (write v s'.db))) →
          Wp (discipline services p) call (next v) Q (.outside replies)
            (s'.record (statementEntry call replies name s' (write v s'.db))))) :
    Wp (discipline services p) call (.sql name locks write next) Q (.outside replies) s := by
  refine Wp.autocommit fun s' v hRely hSees _ => ?_
  obtain ⟨⟨c, hCommitting⟩, hNext⟩ := h s' v hRely hSees.db hSees.now hSees.clock
  intro hAssumes
  rw [hSees.db] at hAssumes ⊢
  have hGuarantee := hCommitting.guarantee hRely.inv hAssumes
  refine ⟨hGuarantee, fun r hr => ?_, hNext (hGuarantee.rely_outside hRely.inv)⟩
  cases r with
  | outbox id => exact absurd hr (hLocks v id)
  | _ => trivial

theorem wp_read (hName : name ≠ .storageUsed ∧ name ≠ .claimReady)
    (h : ∀ s' v, (discipline services p).Rely (fun _ => False) s s' → v.db = s'.db →
      v.now = s'.now → v.clock = s'.now →
      Wp (discipline services p) call (next v) Q (.outside replies) s') :
    Wp (discipline services p) call (.sql name (fun _ => []) (fun _ => id) next) Q
      (.outside replies) s := by
  refine wp_autocommit (fun _ _ hMem => by cases hMem) fun s' v hRely hDb hNow hClock => ?_
  refine ⟨⟨.nothing, committing_nothing le_rfl fun _ =>
    storageChecked_of_unclaimed ?_ rfl (not_evicted_of_same rfl) ?_⟩,
    fun hRecord => ?_⟩
  · simp [Entry.saw, Shared.entry, hName.1]
  · simp [Entry.saw, Shared.entry, hName.2]
  · exact (h s' v hRely hDb hNow hClock).settle hRecord

end

/-! ## Answers from outside -/

theorem guarantee_answer {y : Outside} (hSound : (ledger services p).Sound s)
    (hTraffic : Traffic p (s.setExt y)) (hGrows : Grows s.ext y)
    (hBodies : y.bodies = s.ext.bodies) :
    (discipline services p).Guarantee held s (s.setExt y) := by
  refine Ledger.guarantee_setExt hSound hTraffic hGrows (fun r _ => ?_) fun r _ hFree => ?_
  · cases r with
    | outbox id => exact fun row _ => Outside.sent_congr hBodies _
    | _ => trivial
  · cases r with
    | outbox id =>
      intro hClean hNone row hRow
      have hBefore : s.ext.phantomSends = 0 := Nat.le_zero.mp (hNone ▸ hGrows.phantomSends)
      exact (Outside.sent_congr hBodies _).trans (hFree hClean hBefore row hRow)
    | _ => trivial

theorem guarantee_none (hSound : (ledger services p).Sound s) :
    (discipline services p).Guarantee held s (s.setExt s.ext) :=
  guarantee_answer hSound hSound.2 (.refl _) rfl

theorem guarantee_sends {queue : String} {reply : Reply} {y : Outside} {row : OutboxEvent}
    (hSound : (ledger services p).Sound s) (h : sends queue row.payload reply s.ext = some y)
    (hRow : s.db.outbox.get row.id = some row) (hHeld : held (.outbox row.id))
    (hFirst : p.clean = true → s.ext.phantomSends = 0 → s.ext.sent row.payload.fileId = 0) :
    (discipline services p).Guarantee held s (s.setExt y) := by
  have hAdmits := hSound.2.rows row (Table.mem_of_get hRow)
  have hOther : ∀ id, ¬ held (.outbox id) → ∀ other, s.db.outbox.get id = some other →
      other.payload.fileId ≠ row.payload.fileId := by
    intro id hNot other hGet hSame
    have hEq := hSound.2.distinct other (Table.mem_of_get hGet) row (Table.mem_of_get hRow) hSame
    rw [← Table.key_of_get hGet, hEq] at hNot
    exact hNot hHeld
  have hGrows := sends_grows h
  refine Ledger.guarantee_setExt hSound (hSound.2.sends h hAdmits hFirst) hGrows
    (fun r hr => ?_) fun r hr hFree => ?_
  · cases r with
    | outbox id => exact fun other hGet => sent_of_sends h (hOther id hr other hGet)
    | _ => trivial
  · cases r with
    | outbox id =>
      intro hClean hNone other hGet
      have hBefore : s.ext.phantomSends = 0 := Nat.le_zero.mp (hNone ▸ hGrows.phantomSends)
      exact (sent_of_sends h (hOther id hr other hGet)).trans (hFree hClean hBefore other hGet)
    | _ => trivial

end Pixaeron.Conversion
