import Pixaeron.Notifications.RecoveryLedger

/-! # Verified: the clean-up

The clean-up deletes an alias row only if no audit is about it, and it locks the row before it
does so: whoever wants to record an audit about it has to wait and then finds no row.
-/

namespace Pixaeron.Notifications

open Transactions Transactions.Script

variable {services : EmailServices} {ring : KeyRing} {call : Call}
  {s s' : Shared notifications Call}
  {held : Resource → Prop} {keys : List (String × String)} {gone : List RecipientHash}
    {pending : Database → Database}

/-- The writes of a clean-up so far: the audits under `keys` and the alias rows `gone` are deleted.
-/
structure Sweeps (pending : Database → Database) (keys : List (String × String))
    (gone : List RecipientHash) : Prop where
  audits : ∀ db a, a ∈ (pending db).audits.rows ↔ a ∈ db.audits.rows ∧ a.key ∉ keys
  destinations : ∀ db alias_, (pending db).destinations.get alias_ = if alias_ ∈ gone then none
    else db.destinations.get alias_

theorem sweeps_id : Sweeps id [] [] := ⟨fun _ _ => by simp, fun _ _ => by simp⟩

theorem Sweeps.other (h : Sweeps pending keys gone) {change : Database → Database}
    (hSame : ∀ db, (change db).audits = db.audits ∧ (change db).destinations = db.destinations) :
    Sweeps (change ∘ pending) keys gone where
  audits db a := by
    rw [Function.comp, (hSame _).1]
    exact h.audits db a
  destinations db alias_ := by
    rw [Function.comp, (hSame _).2]
    exact h.destinations db alias_

theorem Sweeps.deleteAudits (h : Sweeps pending keys gone) (more : List (String × String)) :
    Sweeps ((fun db => db.deleteAudits fun a => a.key ∈ more) ∘ pending) (keys ++ more) gone where
  audits db a := by
    have hRows : a ∈ ((pending db).deleteAudits fun a => a.key ∈ more).audits.rows ↔
        a ∈ (pending db).audits.rows ∧ a.key ∉ more := by
      simp [Database.deleteAudits, Table.delete]
    rw [Function.comp, hRows, h.audits db a, List.mem_append]
    tauto
  destinations db alias_ := h.destinations db alias_

theorem Sweeps.deleteDestinations (h : Sweeps pending keys gone) (more : List RecipientHash) :
    Sweeps ((fun db => db.deleteDestinations fun d => d.recipientHash ∈ more) ∘ pending) keys
      (gone ++ more) where
  audits db a := h.audits db a
  destinations db alias_ := by
    have hGet :
        ((pending db).deleteDestinations fun d => d.recipientHash ∈ more).destinations.get alias_ =
        if alias_ ∈ more then none else (pending db).destinations.get alias_ := by
      rw [Database.deleteDestinations, Table.get_delete]
      cases hFound : (pending db).destinations.get alias_ with
      | none => simp
      | some d => simp [Option.filter, Table.key_of_get hFound]
    rw [Function.comp, hGet, h.destinations db alias_]
    by_cases hGone : alias_ ∈ gone <;> by_cases hMore : alias_ ∈ more <;> simp [hGone, hMore]

/-- All audits about the row under the alias are going, too. -/
def Doomed (keys : List (String × String)) (db : Database) (alias_ : RecipientHash) : Prop :=
  ∃ d, db.destinations.get alias_ = some d ∧ ∀ a ∈ db.audits.rows,
    a.destinationId = d.id → a.key ∈ keys

theorem rely_doomed (h : (discipline services ring).Rely held s s') {alias_ : RecipientHash}
    (hHeld : held (.destination alias_)) (hDoomed : Doomed keys s.db alias_) :
    Doomed keys s'.db alias_ := by
  obtain ⟨d, hGet, hAudits⟩ := hDoomed
  obtain ⟨d', hGet', hId⟩ := rely_alias h hHeld hGet
  exact ⟨d', hGet', fun a ha hSame =>
    hAudits a (rely_unaudited h hHeld hGet a ha (hSame.trans hId)) (hSame.trans hId)⟩

def Sweeping (l : Local notifications) (s : Shared notifications Call) : Prop :=
  ∃ tx keys gone, l.tx = some tx ∧ Sweeps tx.pending keys gone ∧
    ∀ alias_ ∈ gone, l.held (.destination alias_) ∧ Doomed keys s.db alias_

variable {l : Local notifications} {tx : LocalTx notifications}

theorem Sweeping.later (h : Sweeping l s) (hRely : (discipline services ring).Rely l.held s s') :
    Sweeping l s' := by
  obtain ⟨tx, keys, gone, hTx, hSweeps, hGone⟩ := h
  refine ⟨tx, keys, gone, hTx, hSweeps, fun alias_ hMem => ⟨(hGone alias_ hMem).1, ?_⟩⟩
  exact rely_doomed hRely (hGone alias_ hMem).1 (hGone alias_ hMem).2

section Statements

variable {α : Type} {name : Statement} {locks : View notifications → List Resource}
  {write : View notifications → Database → Database} {v : View notifications}

theorem Sweeping.other (h : Sweeping l s) (hTx : l.tx = some tx)
    (hSame : ∀ db, (write v db).audits = db.audits ∧ (write v db).destinations = db.destinations) :
    Sweeping (l.ran tx name locks write v) s := by
  obtain ⟨_, keys, gone, hTx', hSweeps, hGone⟩ := h
  cases hTx.symm.trans hTx'
  exact ⟨_, keys, gone, rfl, hSweeps.other hSame,
    fun alias_ hMem => ⟨.inl (hGone alias_ hMem).1, (hGone alias_ hMem).2⟩⟩

theorem Sweeping.deleteAudits (h : Sweeping l s) (hTx : l.tx = some tx)
    (more : List (String × String))
    (hWrite : write v = fun db => db.deleteAudits fun a => a.key ∈ more) :
    Sweeping (l.ran tx name locks write v) s := by
  obtain ⟨_, keys, gone, hTx', hSweeps, hGone⟩ := h
  cases hTx.symm.trans hTx'
  refine ⟨_, keys ++ more, gone, rfl, ?_, fun alias_ hMem => ⟨.inl (hGone alias_ hMem).1, ?_⟩⟩
  · dsimp only
    rw [hWrite]
    exact hSweeps.deleteAudits more
  · obtain ⟨d, hGet, hAudits⟩ := (hGone alias_ hMem).2
    exact ⟨d, hGet, fun a ha hId => List.mem_append_left _ (hAudits a ha hId)⟩

theorem Sweeping.deleteDestinations (h : Sweeping l s) (hTx : l.tx = some tx)
    {where_ : EmailDestination → Bool} (hSees : v.db = tx.pending s.db)
    (hWhere : ∀ d, where_ d = true → v.db.hasAudits d = false)
    (hLocks : locks v = (v.db.destinations.select where_).map fun d => .destination d.recipientHash)
    (hWrite : write v = fun db => db.deleteDestinations fun d => d.recipientHash ∈
      (v.db.destinations.select where_).map EmailDestination.recipientHash) :
    Sweeping (l.ran tx name locks write v) s := by
  obtain ⟨_, keys, gone, hTx', hSweeps, hGone⟩ := h
  cases hTx.symm.trans hTx'
  refine ⟨_, keys, gone ++ (v.db.destinations.select where_).map EmailDestination.recipientHash,
    rfl, ?_,
    fun alias_ hMem => ?_⟩
  · dsimp only
    rw [hWrite]
    exact hSweeps.deleteDestinations _
  · rcases List.mem_append.mp hMem with hOld | hNew
    · exact ⟨.inl (hGone alias_ hOld).1, (hGone alias_ hOld).2⟩
    · obtain ⟨d, hd, rfl⟩ := List.mem_map.mp hNew
      obtain ⟨hRow, hDead⟩ := Table.mem_select.mp hd
      refine ⟨.inr ?_, d, ?_, fun a ha hId => ?_⟩
      · rw [hLocks]
        exact List.mem_map.mpr ⟨d, hd, rfl⟩
      · have hGet := Table.get_of_mem hRow
        rw [hSees, hSweeps.destinations] at hGet
        split at hGet
        · cases hGet
        · exact hGet
      · by_contra hKept
        have hThere : a ∈ v.db.audits.rows := by
          rw [hSees]
          exact (hSweeps.audits s.db a).mpr ⟨ha, hKept⟩
        have hNone := hWhere d hDead
        simp only [Database.hasAudits, List.any_eq_false, decide_eq_true_eq] at hNone
        exact hNone a hThere hId

theorem wp_sweeping {next : View notifications → Script notifications α}
    {Q : α → Local notifications → Shared notifications Call → Prop} (h : Sweeping l s)
    (hKeeps : ∀ tx s' v, l.tx = some tx → v.db = tx.pending s'.db → Sweeping l s' →
      Sweeping (l.ran tx name locks write v) s')
    (hNext : ∀ v l' s', Sweeping l' s' → Wp (discipline services ring) call (next v) Q l' s') :
    Wp (discipline services ring) call (.sql name locks write next) Q l s := by
  have ⟨tx, _, _, hTx, _⟩ := h
  exact Wp.statement hTx safe_any fun s' v hRely _ hSees _ =>
    hNext v _ s' (hKeeps tx s' v hTx hSees.db (h.later hRely))

end Statements

theorem wp_commitSweep {α : Type} {a : α} (hCommand : call.command = none) (h : Sweeping l s) :
    Wp (discipline services ring) call (.commit (.done a)) (fun _ _ _ => True) l s := by
  have ⟨tx, _, _, hTx, _⟩ := h
  refine Wp.commit hTx safe_any fun s' hRely _ hKeyed =>
    ⟨?_, fun _ _ => trivial, Wp.done safe_any fun _ _ => trivial⟩
  obtain ⟨_, keys, gone, hTx', hSweeps, hGone⟩ := h.later hRely
  cases hTx.symm.trans hTx'
  have hFewer : ∀ a ∈ (tx.pending s'.db).audits.rows, a ∈ s'.db.audits.rows :=
    fun a ha => ((hSweeps.audits _ a).mp ha).1
  have hLegal : Legal services ring
      (s'.entry call tx.startedAt tx.reads tx.answers l.replies none (tx.pending s'.db)) := {
    keyed := hKeyed
    kept := fun hError => absurd rfl hError
    audits := .inl hFewer
    aliases := fun d hd => by
      have hGet := Table.get_of_mem hd
      by_cases hMem : d.recipientHash ∈ gone
      · refine .inr fun a ha hId => ?_
        obtain ⟨_, d', hGet', hAudits⟩ := hGone _ hMem
        cases hGet.symm.trans hGet'
        obtain ⟨hOld, hKept⟩ := (hSweeps.audits _ a).mp ha
        exact hKept (hAudits a hOld hId)
      · refine .inl ⟨d, Table.mem_of_get (k := d.recipientHash) ?_, rfl, rfl⟩
        show (tx.pending s'.db).destinations.get _ = _
        rw [hSweeps.destinations, if_neg hMem]
        exact hGet }
  refine Ledger.guarantee_record hRely.inv rfl rfl hLegal
    (orderly_record hRely.inv.2 fun c hc => ?_) (fun r hr => ?_)
    (fun _ _ => trivial) fun _ _ _ => trivial
  · cases hc.symm.trans hCommand
  · cases r with
    | recoveryOperation operationId => exact fun a ha _ => hFewer a ha
    | destination alias_ =>
      refine ⟨fun d hGet => ⟨d, ?_, rfl⟩, fun _ _ a ha _ => hFewer a ha⟩
      have hMem : alias_ ∉ gone := fun hMem => hr (hGone alias_ hMem).1
      show (tx.pending s'.db).destinations.get _ = _
      rw [hSweeps.destinations, if_neg hMem]
      exact hGet
    | _ => trivial

theorem wp_cleanupExpiredHistory :
    Wp (discipline services ring) .cleanupExpiredHistory (cleanupExpiredHistory services ring)
      (fun _ _ _ => True)
      (.outside []) s := by
  refine Wp.clock safe_outside fun s₀ hRely₀ => ?_
  refine Wp.transaction (fun _ _ _ _ => Wp.done safe_any fun _ _ => trivial) fun s₁ hRely₁ => ?_
  have hStart : Sweeping ((Local.outside []).opened s₁.now cleanupTimeoutMs) s₁ :=
    ⟨_, [], [], rfl, sweeps_id, fun _ hMem => by cases hMem⟩
  refine wp_sweeping hStart (fun tx s v hTx _ h => h.other hTx fun _ => ⟨rfl, rfl⟩)
    fun v₂ l₂ s₂ h₂ => ?_
  rw [bind_done]
  split
  · exact Wp.done safe_any fun _ hRely => wp_commitSweep rfl (h₂.later hRely)
  refine wp_sweeping h₂ (fun tx s v hTx _ h => h.other hTx fun _ => ⟨rfl, rfl⟩) fun v₃ l₃ s₃ h₃ =>
    ?_
  refine wp_sweeping h₃ (fun tx s v hTx _ h => h.deleteAudits hTx _ rfl) fun v₄ l₄ s₄ h₄ => ?_
  refine wp_sweeping h₄ (fun tx s v hTx _ h => h.other hTx fun _ => ⟨rfl, rfl⟩) fun v₅ l₅ s₅ h₅ =>
    ?_
  refine wp_sweeping h₅ (fun tx s v hTx hSees h =>
    h.deleteDestinations hTx hSees (fun d hWhere => ?_) rfl rfl)
    fun v₆ l₆ s₆ h₆ => ?_
  · simp only [Database.isRetired, Bool.and_eq_true, Bool.not_eq_true'] at hWhere
    exact hWhere.2
  refine wp_sweeping h₆ (fun tx s v hTx hSees h =>
    h.deleteDestinations hTx hSees (fun d hWhere => ?_) rfl rfl)
    fun v₇ l₇ s₇ h₇ => ?_
  · simp only [Database.isRetiredBlocking, Bool.and_eq_true, Bool.not_eq_true'] at hWhere
    exact hWhere.1.2
  exact Wp.done safe_any fun _ hRely => wp_commitSweep rfl (h₇.later hRely)

end Pixaeron.Notifications
