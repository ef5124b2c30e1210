import Pixaeron.Notifications.RecoveryLedger

/-! # Verified: recovery commands

From the moment a command has locked its operation nobody else records audits of it. What the
command then reads therefore decides how it ends.
-/

namespace Pixaeron.Notifications

open Transactions Transactions.Script

variable {services : EmailServices} {ring : KeyRing} {call : Call}
  {s s' : Shared notifications Call}
  {held : Resource → Prop} {c : RecoveryCommand} {destinations : List EmailDestination}
    {audits : List EmailRecoveryAudit}

/-- The alias rows have been read after the entries `first`, under the lock of the operation. -/
def ReadAliases (services : EmailServices) (ring : KeyRing) (c : RecoveryCommand)
    (destinations : List EmailDestination) (s : Shared notifications Call) : Prop :=
  ∃ first rest db t, s.history = first ++ rest ∧
    (∀ e ∈ rest, Respects (.recoveryOperation c.evidence.operationId) e) ∧
    Path (Legal services ring) emptyDatabase 0 first db t ∧
    destinations = db.aliases (services.createLookupHashes ring c.recipient)

/-- The audits have been read, too. -/
def ReadAudits (services : EmailServices) (ring : KeyRing) (c : RecoveryCommand)
    (destinations : List EmailDestination) (audits : List EmailRecoveryAudit)
    (s : Shared notifications Call) : Prop :=
  ∃ first second rest db t db' t', s.history = first ++ (second ++ rest) ∧
    (∀ e ∈ second ++ rest, Respects (.recoveryOperation c.evidence.operationId) e) ∧
    Path (Legal services ring) emptyDatabase 0 first db t ∧
    destinations = db.aliases (services.createLookupHashes ring c.recipient) ∧
    Path (Legal services ring) emptyDatabase 0 (first ++ second) db' t' ∧
      audits = db'.auditsOf c.evidence.operationId

theorem readAliases_here (hSound : (ledger services ring).Sound s) :
    ReadAliases services ring c (s.db.aliases (services.createLookupHashes ring c.recipient)) s :=
  ⟨s.history, [], s.db, s.now, (List.append_nil _).symm, fun _ he => (by cases he), hSound.1, rfl⟩

theorem ReadAliases.later (h : ReadAliases services ring c destinations s)
    (hRely : (discipline services ring).Rely held s s')
    (hHeld : held (.recoveryOperation c.evidence.operationId)) :
    ReadAliases services ring c destinations s' := by
  obtain ⟨first, rest, db, t, hHistory, hSpared, hRest⟩ := h
  obtain ⟨es, hHistory', _, hRespects⟩ := rely_entries hRely
  refine ⟨first, rest ++ es, db, t,
    by rw [hHistory', hHistory, List.append_assoc], fun e he => ?_, hRest⟩
  rcases List.mem_append.mp he with hOld | hNew
  · exact hSpared e hOld
  · exact hRespects _ hHeld e hNew

theorem ReadAliases.readAudits (h : ReadAliases services ring c destinations s)
    (hSound : (ledger services ring).Sound s) :
    ReadAudits services ring c destinations (s.db.auditsOf c.evidence.operationId) s := by
  obtain ⟨first, rest, db, t, hHistory, hSpared, hPath, hAliases⟩ := h
  refine ⟨first, rest, [], db, t, s.db, s.now,
    by rw [List.append_nil, hHistory], ?_, hPath, hAliases, hHistory ▸ hSound.1, rfl⟩
  rw [List.append_nil]
  exact hSpared

theorem ReadAudits.later (h : ReadAudits services ring c destinations audits s)
    (hRely : (discipline services ring).Rely held s s')
    (hHeld : held (.recoveryOperation c.evidence.operationId)) :
    ReadAudits services ring c destinations audits s' := by
  obtain ⟨first, second, rest, db, t, db', t', hHistory, hSpared, hRest⟩ := h
  obtain ⟨es, hHistory', _, hRespects⟩ := rely_entries hRely
  refine ⟨first, second, rest ++ es, db, t, db', t',
    by simp [hHistory', hHistory], fun e he => ?_, hRest⟩
  rw [← List.append_assoc] at he
  rcases List.mem_append.mp he with hOld | hNew
  · exact hSpared e hOld
  · exact hRespects _ hHeld e hNew

theorem ReadAudits.judged (h : ReadAudits services ring c destinations audits s) {e : LogEntry}
    (hCommand : e.call.command = some c)
    (hVerdict : Verdict services ring c destinations audits e) :
    Judged services ring s.history e := by
  intro c' hc' _
  cases hCommand.symm.trans hc'
  obtain ⟨first, second, rest, db, t, db', t', hHistory, hSpared, hPath, rfl, hPath', rfl⟩ := h
  exact ⟨first, second, rest, hHistory, hSpared, db, t, db', t', hPath, hPath', hVerdict⟩

theorem wp_failCommand {α : Type} {Q : α → Local notifications → Shared notifications Call → Prop}
    {l : Local notifications} {error : Failure} (hCommand : call.command = some c)
    (hHeld : l.held (.recoveryOperation c.evidence.operationId))
    (h : ReadAudits services ring c destinations audits s)
    (hVerdict : ∀ e : LogEntry, e.error = some error →
      Verdict services ring c destinations audits e) :
    Wp (discipline services ring) call (.fail error) Q l s := by
  refine Wp.fail safe_any fun s' hRely tx _ hKeyed => ⟨?_, fun _ _ => trivial⟩
  exact guarantee_unchanged hRely.inv hKeyed rfl rfl rfl
    ((h.later hRely hHeld).judged hCommand (hVerdict _ rfl))

theorem wp_commitReplay {α : Type} {a : α} {l : Local notifications} {tx : LocalTx notifications}
    (hCommand : call.command = some c) (hHeld : l.held (.recoveryOperation c.evidence.operationId))
    (hTx : l.tx = some tx) (hPending : tx.pending = id)
    (h : ReadAudits services ring c destinations audits s) (hSome : audits ≠ [])
    (hReplay : isExactReplay audits destinations c.change c.evidence = true) :
    Wp (discipline services ring) call (.commit (.done a)) (fun _ _ _ => True) l s := by
  refine Wp.commit hTx safe_any fun s' hRely _ hKeyed =>
    ⟨?_, fun _ _ => trivial, Wp.done safe_any fun _ _ => trivial⟩
  have hSame : tx.pending s'.db = s'.db := by rw [hPending]; rfl
  refine guarantee_unchanged hRely.inv hKeyed rfl rfl hSame
    ((h.later hRely hHeld).judged hCommand ?_)
  exact .replayed hSome hReplay rfl hSame

/-! ## The transition -/

theorem key_newAudit {now : Nat} {d : EmailDestination} :
    (newAudit c.change c.evidence now d).key = (c.evidence.operationId, d.id) := rfl

theorem mem_insertAudits {db : Database} {now : Nat}
    (hIds : (destinations.map EmailDestination.id).Nodup)
    (hFresh : ∀ a ∈ db.audits.rows, a.operationId ≠ c.evidence.operationId)
    (a : EmailRecoveryAudit) :
    a ∈ (db.insertAudits (destinations.map (newAudit c.change c.evidence now))).audits.rows ↔
      a ∈ db.audits.rows ∨ ∃ d ∈ destinations, a = newAudit c.change c.evidence now d := by
  have hNone (d : EmailDestination) : db.audits.get (c.evidence.operationId, d.id) = none :=
    Table.get_eq_none_iff.mpr fun a ha hKey => hFresh a ha (congrArg Prod.fst hKey)
  rw [Table.mem_rows_iff, Database.insertAudits, Table.get_insertAll, Option.or_eq_some_iff,
    ← Table.mem_rows_iff]
  refine or_congr_right ⟨fun ⟨_, hFound⟩ => ?_, ?_⟩
  · obtain ⟨d, hd, hNew⟩ := List.mem_map.mp (List.mem_of_find?_eq_some hFound)
    exact ⟨d, hd, hNew.symm⟩
  · rintro ⟨d, hd, rfl⟩
    refine ⟨hNone d, ?_⟩
    have hFind : (destinations.map (newAudit c.change c.evidence now)).find?
      (fun a => a.key = (c.evidence.operationId, d.id)) =
        some (newAudit c.change c.evidence now d) := by
      clear hNone hFresh
      induction destinations with
      | nil => cases hd
      | cons d₀ rest ih =>
        rw [List.map_cons, List.nodup_cons] at hIds
        rw [List.map_cons, List.find?_cons, key_newAudit]
        rcases List.mem_cons.mp hd with rfl | hRest
        · simp
        · have hApart : d₀.id ≠ d.id := fun hSame => hIds.1 (hSame ▸ List.mem_map_of_mem hRest)
          simp only [Prod.mk.injEq, hApart, and_false, decide_false]
          exact ih hIds.2 hRest
    exact hFind

/-- A command that has found its alias rows as expected and locked them. -/
structure Recovering (services : EmailServices) (ring : KeyRing) (c : RecoveryCommand)
    (destinations : List EmailDestination) (l : Local notifications)
    (s : Shared notifications Call) : Prop where
  valid : validateRecoveryEvidence services c.evidence c.change.action = .ok ()
  operation : l.held (.recoveryOperation c.evidence.operationId)
  read : ReadAudits services ring c destinations [] s
  fresh : s.db.auditsOf c.evidence.operationId = []
  nonempty : destinations ≠ []
  ids : (destinations.map EmailDestination.id).Nodup
  revision : (maximumRevision (destinations.map EmailDestination.suppressionRevision) : Int) =
    c.evidence.expectedSuppressionRevision
  aliases : ∀ d ∈ destinations, d.recipientHash ∈ services.createLookupHashes ring c.recipient ∧
    l.held (.destination d.recipientHash) ∧ ∃ d', s.db.destinations.get d.recipientHash = some d' ∧
      d'.id = d.id

theorem Recovering.later {l : Local notifications} (h : Recovering services ring c destinations l s)
    (hRely : (discipline services ring).Rely l.held s s') :
    Recovering services ring c destinations l s' where
  valid := h.valid
  operation := h.operation
  read := h.read.later hRely h.operation
  fresh := List.eq_nil_iff_forall_not_mem.mpr fun a ha => by
    have hOld := rely_audits hRely h.operation a ha
    rw [h.fresh] at hOld
    cases hOld
  nonempty := h.nonempty
  ids := h.ids
  revision := h.revision
  aliases d hd := by
    obtain ⟨hLookup, hHeld, d', hGet, hId⟩ := h.aliases d hd
    obtain ⟨d'', hGet', hId'⟩ := rely_alias hRely hHeld hGet
    exact ⟨hLookup, hHeld, d'', hGet', hId'.trans hId⟩

/-- What a command writes: the new status of the alias rows and an audit for each of them. -/
def recoveryWrites (c : RecoveryCommand) (destinations : List EmailDestination)
    (aliases : List RecipientHash) (now : Nat) (db : Database) : Database :=
  (db.changeDestinations aliases (EmailDestination.recover c.change.nextStatus)).insertAudits
    (destinations.map (newAudit c.change c.evidence now))

theorem get_recoveryWrites {aliases : List RecipientHash} {now : Nat} {db : Database}
    {alias_ : RecipientHash} {d : EmailDestination} (hGet : db.destinations.get alias_ = some d) :
    ∃ d', (recoveryWrites c destinations aliases now db).destinations.get alias_ = some d' ∧
      d'.id = d.id := by
  simp only [recoveryWrites, Database.insertAudits, Database.changeDestinations, Table.get_modify,
    hGet, Option.map_some]
  refine ⟨_, rfl, ?_⟩
  split
  · unfold EmailDestination.recover
    dsimp only
    split <;> rfl
  · rfl

theorem auditsOf_eq_nil {db : Database} {operationId : String} (h : db.auditsOf operationId = []) :
    ∀ a ∈ db.audits.rows, a.operationId ≠ operationId := by
  intro a ha hSame
  have hMem : a ∈ db.auditsOf operationId := Table.mem_select.mpr ⟨ha, decide_eq_true hSame⟩
  rw [h] at hMem
  cases hMem

theorem wp_commitRecovery {α : Type} {a : α} {l : Local notifications} {tx : LocalTx notifications}
    (destinations : List EmailDestination) (aliases : List RecipientHash)
    (hCommand : call.command = some c) (hTx : l.tx = some tx)
    (hPending : tx.pending = recoveryWrites c destinations aliases tx.startedAt)
    (h : Recovering services ring c destinations l s) :
    Wp (discipline services ring) call (.commit (.done a)) (fun _ _ _ => True) l s := by
  refine Wp.commit hTx safe_any fun s' hRely _ hKeyed =>
    ⟨?_, fun _ _ => trivial, Wp.done safe_any fun _ _ => trivial⟩
  have hHere := h.later hRely
  have hFresh := auditsOf_eq_nil hHere.fresh
  rw [hPending] at hKeyed ⊢
  have hAudits (a : EmailRecoveryAudit) :
      a ∈ (recoveryWrites c destinations aliases tx.startedAt s'.db).audits.rows ↔
        a ∈ s'.db.audits.rows ∨ ∃ d ∈ destinations,
          a = newAudit c.change c.evidence tx.startedAt d :=
    mem_insertAudits h.ids hFresh a
  have hRecorded : Recorded services ring
    (s'.entry call tx.startedAt tx.reads tx.answers l.replies none
      (recoveryWrites c destinations aliases tx.startedAt s'.db)) c destinations := {
    valid := h.valid
    nonempty := h.nonempty
    aliases := fun d hd => ⟨(hHere.aliases d hd).1, (hHere.aliases d hd).2.2⟩
    revision := h.revision
    fresh := hFresh
    audits := hAudits }
  have hLegal : Legal services ring (s'.entry call tx.startedAt tx.reads tx.answers l.replies none
      (recoveryWrites c destinations aliases tx.startedAt s'.db)) := {
    keyed := hKeyed
    kept := fun hError => absurd rfl hError
    audits := .inr ⟨c, destinations, hCommand, hRecorded⟩
    aliases := fun d hd => by
      obtain ⟨d', hGet', hId'⟩ := get_recoveryWrites (Table.get_of_mem hd)
      exact .inl ⟨d', Table.mem_of_get hGet', hId', Table.key_of_get hGet'⟩ }
  refine Ledger.guarantee_record hRely.inv rfl rfl hLegal
    (orderly_record hRely.inv.2 (hHere.read.judged hCommand (.first rfl fun _ => hRecorded)))
      (fun r hr => ?_)
    (fun _ _ => trivial) fun _ _ _ => trivial
  cases r with
  | recoveryOperation operationId =>
    intro a ha hSame
    rcases (hAudits a).mp ha with hOld | ⟨d, _, rfl⟩
    · exact hOld
    · exact absurd (hSame ▸ h.operation) hr
  | destination alias_ =>
    refine ⟨fun d hGet => get_recoveryWrites hGet, fun d hGet a ha hSame => ?_⟩
    rcases (hAudits a).mp ha with hOld | ⟨d₀, hd₀, rfl⟩
    · exact hOld
    · obtain ⟨_, hHeld, d', hGet', hId'⟩ := hHere.aliases d₀ hd₀
      have hOne : d = d' :=
        (Sound.referenced hRely.inv).keyed d' (Table.mem_of_get hGet') d (Table.mem_of_get hGet)
        (hSame.symm.trans hId'.symm)
      have hAlias : alias_ = d₀.recipientHash := by
        rw [← Table.key_of_get hGet, hOne, Table.key_of_get hGet']
      exact absurd (hAlias ▸ hHeld) hr
  | _ => trivial

theorem nodup_aliases {db : Database} {hashes : List RecipientHash} :
    ((db.aliases hashes).map EmailDestination.recipientHash).Nodup :=
  db.destinations.nodup.sublist (List.filter_sublist.map _)

theorem nodup_ids {db : Database} {hashes : List RecipientHash} (hKeyed : db.Keyed) :
    ((db.aliases hashes).map EmailDestination.id).Nodup := by
  refine List.Nodup.map_on (fun d hd d' hd' hSame => ?_) (List.Nodup.of_map _ nodup_aliases)
  exact (hKeyed d (Table.mem_select.mp hd).1 d' (Table.mem_select.mp hd').1 hSame.symm).symm

/-- If as many rows are updated as have been read, they are the rows that have been read. -/
theorem updated_all {db : Database} {status : EmailDestinationStatus}
    (hNodup : (destinations.map EmailDestination.recipientHash).Nodup)
    (hCount : (db.destinations.select (isUnchanged destinations status)).length =
      destinations.length) :
    ∀ d ∈ destinations, ∃ d' ∈ db.destinations.select (isUnchanged destinations status),
      d'.recipientHash = d.recipientHash ∧ d'.id = d.id := by
  intro d hd
  have hFound (d' : EmailDestination)
    (hd' : d' ∈ db.destinations.select (isUnchanged destinations status)) :
      ∃ found ∈ destinations, d'.recipientHash = found.recipientHash ∧ d'.id = found.id := by
    have hUnchanged := (Table.mem_select.mp hd').2
    simp only [isUnchanged, List.any_eq_true, Bool.and_eq_true, EmailDestination.is,
      decide_eq_true_eq] at hUnchanged
    obtain ⟨found, hMem, ⟨hIs, _⟩, _⟩ := hUnchanged
    exact ⟨found, hMem, hIs⟩
  have hSubset :
      (db.destinations.select (isUnchanged destinations status)).map
        EmailDestination.recipientHash ⊆ destinations.map EmailDestination.recipientHash := by
    intro alias_ hAlias
    obtain ⟨d', hd', rfl⟩ := List.mem_map.mp hAlias
    obtain ⟨found, hMem, hHash, _⟩ := hFound d' hd'
    exact hHash ▸ List.mem_map_of_mem hMem
  have hDistinct : ((db.destinations.select (isUnchanged destinations status)).map
    EmailDestination.recipientHash).Nodup :=
    db.destinations.nodup.sublist (List.filter_sublist.map _)
  have hPerm := (List.subperm_of_subset hDistinct hSubset).perm_of_length_le (by simp [hCount])
  obtain ⟨d', hd', hHash⟩ := List.mem_map.mp (hPerm.mem_iff.mpr (List.mem_map_of_mem hd))
  obtain ⟨found, hMem, hSameHash, hSameId⟩ := hFound d' hd'
  have hEq : found = d := List.inj_on_of_nodup_map hNodup hMem hd (hSameHash.symm.trans hHash)
  exact ⟨d', hd', hHash, hSameId.trans (congrArg _ hEq)⟩

theorem wp_applyRecovery {l : Local notifications} {tx : LocalTx notifications}
    (hCommand : call.command = some c)
    (hValid : validateRecoveryEvidence services c.evidence c.change.action = .ok ())
    (hHeld : l.held (.recoveryOperation c.evidence.operationId)) (hTx : l.tx = some tx)
    (hPending : tx.pending = id) (hRead : ReadAudits services ring c destinations [] s)
    (hFresh : s.db.auditsOf c.evidence.operationId = []) (hNonempty : destinations ≠ [])
    (hIds : (destinations.map EmailDestination.id).Nodup)
    (hHashes : (destinations.map EmailDestination.recipientHash).Nodup)
    (hLookup : ∀ d ∈ destinations, d.recipientHash ∈ services.createLookupHashes ring c.recipient) :
    Wp (discipline services ring) call
      ((applyRecovery c.change c.evidence destinations).bind fun _ => .done (Except.ok ()))
      (fun (a : Except Failure Unit) => Wp (discipline services ring) call
        (.commit (.done a)) fun _ _ _ => True) l s := by
  have hFail {error : Failure} {l' : Local notifications} {s' : Shared notifications Call}
      (hHeld' : l'.held (.recoveryOperation c.evidence.operationId))
        (h : ReadAudits services ring c destinations [] s') :
      Wp (discipline services ring) call (.fail error)
        (fun (a : Except Failure Unit) => Wp (discipline services ring) call
          (.commit (.done a)) fun _ _ _ => True) l' s' :=
    wp_failCommand hCommand hHeld' h fun e hError => .first rfl fun hNone => by
      cases hNone.symm.trans hError
  unfold applyRecovery require
  split
  swap
  · exact hFail hHeld hRead
  next hExpected =>
  simp only [isExpectedState, Bool.and_eq_true, decide_eq_true_eq] at hExpected
  refine Wp.statement hTx safe_any fun s₁ v₁ hRely₁ _ hSees₁ _ => ?_
  have hDb₁ : v₁.db = s₁.db := by rw [hSees₁.db, hPending]; rfl
  have hRead₁ := hRead.later hRely₁ hHeld
  dsimp only [bind_done, bind_eq]
  split
  swap
  · exact hFail (.inl hHeld) hRead₁
  next hCount =>
  have hRecovering : Recovering services ring c destinations
      (l.ran tx .recover (fun v =>
        (v.db.destinations.select (isUnchanged destinations c.change.expectedStatus)).map
        fun d => .destination d.recipientHash)
      (fun v db => db.changeDestinations ((v.db.destinations.select
        (isUnchanged destinations c.change.expectedStatus)).map EmailDestination.recipientHash)
        (EmailDestination.recover c.change.nextStatus)) v₁) s₁ := {
    valid := hValid
    operation := .inl hHeld
    read := hRead₁
    fresh := List.eq_nil_iff_forall_not_mem.mpr fun a ha => by
      have hOld := rely_audits hRely₁ hHeld a ha
      rw [hFresh] at hOld
      cases hOld
    nonempty := hNonempty
    ids := hIds
    revision := hExpected.2
    aliases := fun d hd => by
      obtain ⟨d', hd', hHash, hId⟩ := updated_all hHashes hCount d hd
      refine ⟨hLookup d hd, .inr (List.mem_map.mpr ⟨d', hd', by rw [hHash]⟩), d', ?_, hId⟩
      rw [← hHash, ← hDb₁]
      exact Table.get_of_mem (Table.mem_select.mp hd').1 }
  refine Wp.statement rfl safe_any fun s₂ v₂ hRely₂ _ hSees₂ _ => ?_
  refine Wp.done safe_any fun s₃ hRely₃ => ?_
  have hHere := (hRecovering.later hRely₂).later (hRely₃.weaken fun r hr => .inl hr)
  refine wp_commitRecovery destinations ((v₁.db.destinations.select
    (isUnchanged destinations c.change.expectedStatus)).map EmailDestination.recipientHash)
      hCommand rfl ?_ ?_
  · dsimp only
    rw [hPending, hSees₂.now]
    rfl
  · exact { hHere with
      operation := .inl hHere.operation
      aliases := fun d hd => ⟨(hHere.aliases d hd).1, .inl (hHere.aliases d hd).2.1,
        (hHere.aliases d hd).2.2⟩ }

theorem wp_transition (hCommand : call.command = some c) :
    Wp (discipline services ring) call (transition services ring c.recipient c.change c.evidence)
      (fun _ _ _ => True)
      (.outside []) s := by
  unfold transition
  split
  · exact Wp.done safe_any fun _ _ => trivial
  next hValid =>
  refine Wp.transaction (fun _ _ _ _ => Wp.done safe_any fun _ _ => trivial) fun s₀ hRely₀ => ?_
  refine Wp.statement rfl safe_any fun s₁ v₁ hRely₁ _ hSees₁ _ => ?_
  refine Wp.statement rfl safe_any fun s₂ v₂ hRely₂ _ hSees₂ _ => ?_
  have hDb₂ : v₂.db = s₂.db := hSees₂.db
  dsimp only [bind_done, bind_eq]
  rw [hDb₂]
  have hAliases := readAliases_here (c := c) hRely₂.inv
  generalize hDestinations : s₂.db.aliases (services.createLookupHashes ring c.recipient) =
    destinations at hAliases ⊢
  unfold require
  split
  swap
  · next hNone =>
    refine wp_failCommand hCommand (.inl (.inr List.mem_cons_self))
      (hAliases.readAudits hRely₂.inv) fun e hError => ?_
    exact .unknown (not_not.mp hNone) hError
  next hNonempty =>
  refine Wp.statement rfl safe_any fun s₃ v₃ hRely₃ _ hSees₃ _ => ?_
  have hDb₃ : v₃.db = s₃.db := hSees₃.db
  have hRead := (hAliases.later hRely₃ (.inl (.inr List.mem_cons_self))).readAudits hRely₃.inv
  dsimp only [bind_done, bind_eq]
  rw [show (v₃.db.audits.select fun a => a.operationId = c.evidence.operationId) =
    s₃.db.auditsOf c.evidence.operationId by rw [hDb₃]; rfl]
  split
  · next hSome =>
    split
    · next hReplay =>
      refine Wp.done safe_any fun s₄ hRely₄ => ?_
      have hHeld := hRead.later hRely₄ (.inl (.inl (.inr List.mem_cons_self)))
      exact wp_commitReplay hCommand (.inl (.inl (.inr List.mem_cons_self))) rfl rfl hHeld
        hSome hReplay
    · next hReplay =>
      refine wp_failCommand hCommand (.inl (.inl (.inr List.mem_cons_self))) hRead fun e hError =>
        ?_
      exact .conflict hSome (Bool.eq_false_iff.mpr hReplay) hError
  · next hNone =>
    have hFresh := not_not.mp hNone
    rw [hFresh] at hRead
    refine wp_applyRecovery hCommand hValid (.inl (.inl (.inr List.mem_cons_self))) rfl rfl hRead
      hFresh hNonempty ?_ ?_ fun d hd => ?_
    · rw [← hDestinations]
      exact nodup_ids (Sound.referenced hRely₂.inv).keyed
    · rw [← hDestinations]
      exact nodup_aliases
    · rw [← hDestinations] at hd
      exact of_decide_eq_true (Table.mem_select.mp hd).2

end Pixaeron.Notifications
