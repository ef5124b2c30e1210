import Pixaeron.Conversion.Agreement

/-! # Verified: transactions and the roll-up

Rules for the statements of a transaction, and what a roll-up does.
-/

namespace Pixaeron.Conversion

open Transactions Transactions.Script

variable {services : Services} {p : Policy} {call : Call} {s : Shared conversion Call}
  {l l' l'' : Local conversion} {tx tx' tx'' : LocalTx conversion}

/-- The statements whose views an entry is asked for. -/
def recordedStatements : List Statement := [.storageUsed, .claimReady, .evictable]

structure Opened (l : Local conversion) (tx : LocalTx conversion) (replies : List Reply)
    (now limit : Nat) : Prop where
  startedAt : tx.startedAt = now
  limit : tx.limit = limit
  answers : tx.answers = []
  replies : l.replies = replies
  held : ∀ r, ¬ l.held r
  pending : tx.pending = id
  reads : tx.reads = []

structure Ran (name : Statement) (locks : List Resource) (write : Database → Database)
    (seen : Database) (l : Local conversion) (tx : LocalTx conversion) (l' : Local conversion)
    (tx' : LocalTx conversion) : Prop where
  startedAt : tx'.startedAt = tx.startedAt
  limit : tx'.limit = tx.limit
  answers : tx'.answers = tx.answers
  replies : l'.replies = l.replies
  held : ∀ r, l'.held r ↔ l.held r ∨ r ∈ locks
  pending : tx'.pending = write ∘ tx.pending
  reads : tx'.reads = tx.reads ++ [(name, seen)]

/-- The same transaction some statements later. -/
structure Extends (l : Local conversion) (tx : LocalTx conversion) (l' : Local conversion)
    (tx' : LocalTx conversion) : Prop where
  startedAt : tx'.startedAt = tx.startedAt
  limit : tx'.limit = tx.limit
  answers : tx'.answers = tx.answers
  replies : l'.replies = l.replies
  held : ∀ r, l.held r → l'.held r
  reads : ∀ name ∈ recordedStatements, (tx'.reads.find? (·.1 = name)) = tx.reads.find? (·.1 = name)

theorem Extends.refl (l : Local conversion) (tx : LocalTx conversion) : Extends l tx l tx :=
  ⟨rfl, rfl, rfl, rfl, fun _ h => h, fun _ _ => rfl⟩

theorem Extends.trans (h : Extends l tx l' tx')
    (h' : Extends l' tx' l'' tx'') : Extends l tx l'' tx'' where
  startedAt := h'.startedAt.trans h.startedAt
  limit := h'.limit.trans h.limit
  answers := h'.answers.trans h.answers
  replies := h'.replies.trans h.replies
  held r hr := h'.held r (h.held r hr)
  reads name hName := (h'.reads name hName).trans (h.reads name hName)

section Ran

variable {name : Statement} {locks : List Resource} {write : Database → Database} {seen : Database}

theorem Ran.keeps (h : Ran name locks write seen l tx l' tx') (r : Resource)
    (hHeld : l.held r) : l'.held r :=
  (h.held r).mpr (.inl hHeld)

theorem Ran.takes (h : Ran name locks write seen l tx l' tx') {r : Resource}
    (hMem : r ∈ locks) : l'.held r :=
  (h.held r).mpr (.inr hMem)

theorem Ran.extends (h : Ran name locks write seen l tx l' tx')
    (hName : name ∉ recordedStatements) :
    Extends l tx l' tx' where
  startedAt := h.startedAt
  limit := h.limit
  answers := h.answers
  replies := h.replies
  held := h.keeps
  reads recorded hRecorded := by
    have hOther : name ≠ recorded := fun hSame => hName (hSame ▸ hRecorded)
    rw [h.reads, List.find?_append]
    simp [hOther]

end Ran

theorem Extends.rely {s s' : Shared conversion Call} (h : Extends l tx l' tx')
    (hRely : (discipline services p).Rely l'.held s s') :
    (discipline services p).Rely l.held s s' :=
  hRely.weaken h.held

theorem rely_outside {held : Resource → Prop} {s s' : Shared conversion Call}
    (hRely : (discipline services p).Rely held s s') :
    (discipline services p).Rely (fun _ => False) s s' :=
  hRely.weaken fun _ h => h.elim

section

variable {α : Type} {Q : α → Local conversion → Shared conversion Call → Prop}

theorem wp_transaction {limit : Nat} {body : Script conversion α}
    {handler : Failure → Script conversion α} {replies : List Reply}
    (hHandler : ∀ error replies s', (discipline services p).Rely (fun _ => False) s s' →
      Wp (discipline services p) call (handler error) Q (.outside replies) s')
    (hBody : ∀ s' l tx, (discipline services p).Rely (fun _ => False) s s' → Within l tx s' →
      Opened l tx replies s'.now limit →
      Wp (discipline services p) call body
      (fun a => Wp (discipline services p) call (.commit (.done a)) Q) l s') :
    Wp (discipline services p) call (.transaction limit body handler) Q (.outside replies) s := by
  refine Wp.transaction hHandler fun s' hRely => hBody s' _ _ hRely within_opened ?_
  exact ⟨rfl, rfl, rfl, rfl, fun _ h => h, rfl, rfl⟩

variable {name : Statement} {locks : View conversion → List Resource}
  {write : View conversion → Database → Database}
  {next : View conversion → Script conversion α}

theorem locked_batch {db : Database} {batchId : Uuid} {b : ConversionBatch}
    (hGet : db.batches.get batchId = some b) :
    Resource.batch batchId ∈ (db.batches.select fun b => b.id = batchId).map fun b =>
      Resource.batch b.id := by
  obtain ⟨hMem, hKey⟩ := Table.get_eq_some_iff.mp hGet
  exact List.mem_map.mpr ⟨b, by simp [hMem, hKey], by rw [hKey]⟩

theorem wp_statement (hWithin : Within l tx s) (hLocks : ∀ v id, .outbox id ∉ locks v)
    (h : ∀ s' v l' tx', (discipline services p).Rely l.held s s' →
      s'.now ≤ tx.startedAt + tx.limit →
      v.db = tx.pending s'.db → v.now = tx.startedAt → v.clock = s'.now → Within l' tx' s' →
      Ran name (locks v) (write v) v.db l tx l' tx' →
      Wp (discipline services p) call (next v) Q l' s') :
    Wp (discipline services p) call (.sql name locks write next) Q l s := by
  refine Wp.statement hWithin.opened hWithin.safe fun s' v hRely hTime hSees _ => ?_
  refine h s' v _ _ hRely hTime hSees.db hSees.now hSees.clock
    ((hWithin.later hRely).ran (hLocks v)) ?_
  exact ⟨rfl, rfl, rfl, rfl, fun _ => Iff.rfl, rfl, rfl⟩

theorem wp_finish {a : α} (hWithin : Within l tx s)
    (h : ∀ s', (discipline services p).Rely l.held s s' → Within l tx s' → Q a l s') :
    Wp (discipline services p) call (.done a) Q l s :=
  Wp.done hWithin.safe fun s' hRely => h s' hRely (hWithin.later hRely)

theorem wp_fail {error : Failure} (hWithin : Within l tx s)
    (hChecked : ∀ s' : Shared conversion Call,
      StorageChecked (s'.entry call tx.startedAt tx.reads tx.answers l.replies
        (some error) s'.db)) :
    Wp (discipline services p) call (.fail error) Q l s := by
  refine Wp.fail hWithin.safe fun s' hRely tx' hTx' => ?_
  cases hWithin.opened.symm.trans hTx'
  exact (hWithin.later hRely).undoable hRely.inv fun _ => hChecked s'

end

/-- The entry of a transaction that commits in the state `s`. -/
def commitEntry (call : Call) (l : Local conversion) (tx : LocalTx conversion)
    (s : Shared conversion Call) : LogEntry :=
  s.entry call tx.startedAt tx.reads tx.answers l.replies none (tx.pending s.db)

theorem committing_unchanged {held : Resource → Prop} (hWithin : Within l tx s)
    (hPending : tx.pending s.db = s.db) (hChecked : StorageChecked (commitEntry call l tx s)) :
    Committing services p held s (commitEntry call l tx s) .nothing := by
  unfold commitEntry at hChecked ⊢
  rw [hPending] at hChecked ⊢
  exact committing_nothing hWithin.started fun _ => hChecked

theorem wp_commit {α : Type} {a : α} {Q : α → Local conversion → Shared conversion Call → Prop}
    (hWithin : Within l tx s) (h : ∀ s', (discipline services p).Rely l.held s s' →
      s'.now ≤ tx.startedAt + tx.limit →
      (∃ c, p.Assumes (commitEntry call l tx s') →
        Committing services p l.held s' (commitEntry call l tx s') c) ∧
        ∀ s'', (discipline services p).Rely (fun _ => False) s'
        (s'.record (commitEntry call l tx s')) →
          (discipline services p).Rely (fun _ => False) (s'.record (commitEntry call l tx s')) s'' →
          Q a (.outside l.replies) s'') :
    Wp (discipline services p) call (.commit (.done a)) Q l s := by
  refine Wp.commit hWithin.opened hWithin.safe fun s' hRely hTime => ?_
  obtain ⟨⟨c, hCommitting⟩, hPost⟩ := h s' hRely hTime
  exact commits hCommitting hRely.inv hWithin.noOutbox fun hRecord =>
    Wp.done safe_outside fun s'' => hPost s'' hRecord

/-! ## rollUpBatch -/

/-- What a roll-up has seen and done: it read the statuses in `seen`, and if they were all
terminal it changed the batch as it found it in `found`. -/
structure RolledUp (batchId : Uuid) (seen found : Database) (rolled : List Uuid) : Prop where
  quiet : (∃ st ∈ seen.statuses batchId, st ∉ terminalFileStatuses) → rolled = []
  mem : (∀ st ∈ seen.statuses batchId, st ∈ terminalFileStatuses) → ∀ id, id ∈ rolled ↔
    id = batchId ∧ ∃ b, found.batches.get batchId = some b ∧
      b.status ∈ rolledFrom (rolledStatus (seen.statuses batchId))

theorem RolledUp.eq_batchId {batchId id : Uuid} {seen found : Database} {rolled : List Uuid}
    (h : RolledUp batchId seen found rolled) (hMem : id ∈ rolled) : id = batchId := by
  by_cases hAll : ∀ st ∈ seen.statuses batchId, st ∈ terminalFileStatuses
  · exact ((h.mem hAll id).mp hMem).1
  · push Not at hAll
    rw [h.quiet hAll] at hMem
    cases hMem

theorem changeBatches_nil {db : Database} {g : ConversionBatch → ConversionBatch}
    {hKey : ∀ row, (g row).id = row.id} :
    db.changeBatches [] g hKey = db := by
  rw [Database.changeBatches, Table.modify_nil]

theorem changeFiles_nil {db : Database} {g : ConversionFile → ConversionFile}
    {hKey : ∀ row, (g row).id = row.id} :
    db.changeFiles [] g hKey = db := by
  rw [Database.changeFiles, Table.modify_nil]

theorem setStatus_id (status : ConversionBatchStatus)
    (b : ConversionBatch) : { b with status := status }.id = b.id := rfl

def Database.setStatus (db : Database) (ids : List Uuid)
    (status : ConversionBatchStatus) : Database :=
  db.changeBatches ids (fun b => { b with status := status }) (setStatus_id status)

theorem wp_rollUpBatch {batchId : Uuid}
    {Q : Option ConversionBatchStatus → Local conversion → Shared conversion Call → Prop}
    (hWithin : Within l tx s) (h : ∀ s₁ s₂ s₃ rolled l' tx' result,
      (discipline services p).Rely l.held s s₁ →
      (discipline services p).Rely l.held s₁ s₂ → (discipline services p).Rely l'.held s₂ s₃ →
      Within l' tx' s₃ → Extends l tx l' tx' →
      RolledUp batchId (tx.pending s₁.db) (tx.pending s₂.db) rolled →
      tx'.pending = (fun db => db.setStatus rolled
        (rolledStatus ((tx.pending s₁.db).statuses batchId))) ∘ tx.pending →
      (∀ id ∈ rolled, l'.held (.batch id)) → Q result l' s₃) :
    Wp (discipline services p) call (rollUpBatch batchId) Q l s := by
  unfold rollUpBatch
  refine wp_statement hWithin (fun _ _ hMem => by cases hMem)
    fun s₁ v l₁ tx₁ hRely₁ _ hDb _ _ hWithin₁ hRan₁ => ?_
  rw [Script.bind_done]
  split
  · next hAny =>
    have hSome : (v.db.statuses batchId).any (· ∉ terminalFileStatuses) = true := hAny
    have hOpen : ∃ st ∈ (tx.pending s₁.db).statuses batchId, st ∉ terminalFileStatuses := by
      rw [← hDb]
      simpa using hSome
    refine wp_finish hWithin₁ fun s₃ hRely₃ hWithin₃ => ?_
    refine h s₁ s₁ s₃ [] l₁ tx₁ _ hRely₁ (.refl hRely₁.inv) hRely₃ hWithin₃
      (hRan₁.extends (by decide))
      ⟨fun _ => rfl, fun hAll => ?_⟩ ?_ (fun _ hMem => by cases hMem)
    · obtain ⟨st, hSt, hNot⟩ := hOpen
      exact absurd (hAll st hSt) hNot
    · rw [hRan₁.pending]
      funext db
      exact changeBatches_nil.symm
  · next hNone =>
    have hAll : ∀ st ∈ (tx.pending s₁.db).statuses batchId, st ∈ terminalFileStatuses := by
      have hNot : ¬ (v.db.statuses batchId).any (· ∉ terminalFileStatuses) = true := hNone
      rw [← hDb]
      simpa using hNot
    refine wp_statement hWithin₁ (fun v id hMem => by simp at hMem)
      fun s₂ v' l₂ tx₂ hRely₂ _ hDb' _ _ hWithin₂ hRan₂ => ?_
    rw [hRan₁.pending] at hDb'
    rw [Script.bind_done]
    refine wp_finish hWithin₂ fun s₃ hRely₃ hWithin₃ => ?_
    refine h s₁ s₂ s₃ _ l₂ tx₂ _ hRely₁ (hRely₂.weaken hRan₁.keeps) hRely₃ hWithin₃
      ((hRan₁.extends (by decide)).trans (hRan₂.extends (by decide))) ⟨fun hOpen => ?_,
        fun _ id => ?_⟩
      (by rw [hRan₂.pending, hRan₁.pending, ← hDb]; rfl) ?_
    · obtain ⟨st, hSt, hNot⟩ := hOpen
      exact absurd (hAll st hSt) hNot
    · rw [Table.mem_keys_select, hDb', ← hDb]
      simp only [decide_eq_true_eq]
      rfl
    · intro id hMem
      obtain ⟨b, hb, rfl⟩ := List.mem_map.mp hMem
      exact hRan₂.takes (List.mem_map_of_mem hb)

end Pixaeron.Conversion
