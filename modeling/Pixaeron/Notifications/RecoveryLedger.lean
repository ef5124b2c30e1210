import Pixaeron.Transactions.Writes
import Pixaeron.Transactions.Ledger
import Pixaeron.Notifications.System

/-! # The ledger of recovery commands

Which changes of the audits and of the identities of alias rows the transactions of the service
commit, and what a recovery command has seen when it ends.
-/

namespace Pixaeron.Notifications

open Transactions Transactions.Script

abbrev LogEntry := Entry notifications Call

/-- A command with the statuses and the action that its kind stands for. -/
structure RecoveryCommand where
  recipient : String
  change : RecoveryTransition
  evidence : RecoveryEvidence
deriving DecidableEq

def Call.command : Call → Option RecoveryCommand
  | .requestRecovery recipient evidence =>
    some ⟨recipient, ⟨.suppressed, .recoveryPending, .requested⟩, evidence⟩
  | .completeRecovery recipient evidence =>
    some ⟨recipient, ⟨.recoveryPending, .active, .completed⟩, evidence⟩
  | .failRecovery recipient evidence =>
    some ⟨recipient, ⟨.recoveryPending, .suppressed, .failed⟩, evidence⟩
  | _ => none

def Database.auditsOf (db : Database) (operationId : String) : List EmailRecoveryAudit :=
  db.audits.select fun a => a.operationId = operationId

/-- The identifier is the primary key of the alias rows. -/
def Database.Keyed (db : Database) : Prop :=
  ∀ d ∈ db.destinations.rows, ∀ d' ∈ db.destinations.rows, d'.id = d.id → d' = d

instance {db : Database} : Decidable db.Keyed :=
  inferInstanceAs (Decidable (∀ d ∈ db.destinations.rows, ∀ d' ∈ db.destinations.rows,
    d'.id = d.id → d' = d))

/-- Whoever is under the alias stays under it. -/
def SameAlias (db db' : Database) (alias_ : RecipientHash) : Prop :=
  ∀ d, db.destinations.get alias_ = some d → ∃ d',
    db'.destinations.get alias_ = some d' ∧ d'.id = d.id

/-- What the holder of a lock relies on: nobody else records audits of its operation, nobody else
removes or audits its alias rows. -/
def Respects : Resource → LogEntry → Prop
  | .recoveryOperation operationId, e =>
    ∀ a ∈ e.after.audits.rows, a.operationId = operationId → a ∈ e.before.audits.rows
  | .destination alias_, e =>
    SameAlias e.before e.after alias_ ∧ ∀ d, e.before.destinations.get alias_ = some d →
    ∀ a ∈ e.after.audits.rows, a.destinationId = d.id → a ∈ e.before.audits.rows
  | _, _ => True

section

variable (services : EmailServices) (ring : KeyRing)

/-- The entry carries the command out on the given alias rows. -/
structure Recorded (e : LogEntry) (c : RecoveryCommand)
    (destinations : List EmailDestination) : Prop where
  valid : validateRecoveryEvidence services c.evidence c.change.action = .ok ()
  nonempty : destinations ≠ []
  aliases : ∀ d ∈ destinations, d.recipientHash ∈ services.createLookupHashes ring c.recipient ∧
    ∃ d', e.before.destinations.get d.recipientHash = some d' ∧ d'.id = d.id
  revision : (maximumRevision (destinations.map EmailDestination.suppressionRevision) : Int) =
    c.evidence.expectedSuppressionRevision
  fresh : ∀ a ∈ e.before.audits.rows, a.operationId ≠ c.evidence.operationId
  audits : ∀ a, a ∈ e.after.audits.rows ↔
    a ∈ e.before.audits.rows ∨ ∃ d ∈ destinations, a = newAudit c.change c.evidence e.startedAt d

/-- The entries of the service: audits are only added by a command, and alias rows that are
audited stay. -/
structure Legal (e : LogEntry) : Prop where
  keyed : e.after.Keyed
  kept : e.error ≠ none → e.after = e.before
  audits : (∀ a ∈ e.after.audits.rows, a ∈ e.before.audits.rows) ∨
    ∃ c destinations, e.call.command = some c ∧ Recorded services ring e c destinations
  aliases : ∀ d ∈ e.before.destinations.rows,
    (∃ d' ∈ e.after.destinations.rows, d'.id = d.id ∧ d'.recipientHash = d.recipientHash) ∨
      ∀ a ∈ e.after.audits.rows, a.destinationId ≠ d.id

/-- How a command ends that has seen these alias rows and these audits of its operation. -/
inductive Verdict (c : RecoveryCommand) (destinations : List EmailDestination)
    (audits : List EmailRecoveryAudit) (e : LogEntry) : Prop
  | unknown : destinations = [] →
      e.error = some (.recoveryState "Email destination does not exist") →
    Verdict c destinations audits e
  | replayed : audits ≠ [] → isExactReplay audits destinations c.change c.evidence = true →
      e.error = none →
    e.after = e.before → Verdict c destinations audits e
  | conflict : audits ≠ [] → isExactReplay audits destinations c.change c.evidence = false →
    e.error = some .recoveryOperationConflict → Verdict c destinations audits e
  | first : audits = [] → (e.error = none → Recorded services ring e c destinations) →
      Verdict c destinations audits e

/-- The alias rows of a command are those after the entries `first`, its audits those after
`second` as well, and nobody else records audits of its operation from then on. -/
structure JudgedOn (past : List LogEntry) (e : LogEntry) (c : RecoveryCommand)
    (first second rest : List LogEntry) : Prop where
  past : past = first ++ (second ++ rest)
  spared : ∀ e' ∈ second ++ rest, Respects (.recoveryOperation c.evidence.operationId) e'
  verdict : ∃ db t db' t', Path (Legal services ring) emptyDatabase 0 first db t ∧
    Path (Legal services ring) emptyDatabase 0 (first ++ second) db' t' ∧
    Verdict services ring c (db.aliases (services.createLookupHashes ring c.recipient))
      (db'.auditsOf c.evidence.operationId) e

/-- Unless the database has given it up, a command ends as the code decides. -/
def Judged (past : List LogEntry) (e : LogEntry) : Prop :=
  ∀ c, e.call.command = some c → e.error ≠ some .rolledBack → ∃ first second rest,
    JudgedOn services ring past e c first second rest

/-- The keys stay the same, and every command so far has ended as the code decides. -/
structure Orderly (s : Shared notifications Call) : Prop where
  keys : s.ext.keyRing = ring
  judged : ∀ past e later, s.history = past ++ e :: later → Judged services ring past e

def ledger : Ledger notifications Call where
  genesis := emptyDatabase
  Legal := Legal services ring
  Respects := Respects
  Moves _ _ := True
  Spares _ _ _ := True
  Traffic := Orderly services ring
  Free _ _ := True
  Assume e := e.after.Keyed
  moves_refl _ := trivial
  moves_trans _ _ _ _ _ := trivial
  spares_refl _ _ := trivial
  spares_trans _ _ _ _ _ _ _ _ _ := trivial

abbrev discipline : Discipline notifications Call := (ledger services ring).discipline

end

variable {services : EmailServices} {ring : KeyRing} {s s' : Shared notifications Call}
  {held : Resource → Prop}

theorem orderly_record {e : LogEntry} (h : Orderly services ring s)
    (hJudged : Judged services ring s.history e) :
    Orderly services ring (s.record e) where
  keys := h.keys
  judged past e' later hSplit := by
    rw [Shared.record_history] at hSplit
    rcases List.eq_nil_or_concat later with rfl | ⟨initial, last, rfl⟩
    · obtain ⟨rfl, hLast⟩ := List.append_inj' hSplit rfl
      rw [← (List.cons.inj hLast).1]
      exact hJudged
    · have hSplit' : s.history ++ [e] = (past ++ e' :: initial) ++ [last] := by simpa using hSplit
      obtain ⟨hHistory, _⟩ := List.append_inj' hSplit' rfl
      exact h.judged past e' initial hHistory

/-! ## Invariants -/

/-- Every audit is about an alias row, and their identifiers are apart. -/
structure Database.Referenced (db : Database) : Prop where
  keyed : db.Keyed
  destination : ∀ a ∈ db.audits.rows, ∃ d ∈ db.destinations.rows, d.id = a.destinationId

theorem Legal.referenced {e : LogEntry} (h : Legal services ring e)
    (hBefore : e.before.Referenced) :
    e.after.Referenced where
  keyed := h.keyed
  destination a ha := by
    have hKept (d : EmailDestination) (hd : d ∈ e.before.destinations.rows)
      (hId : d.id = a.destinationId) :
        ∃ d ∈ e.after.destinations.rows, d.id = a.destinationId := by
      rcases h.aliases d hd with ⟨d', hd', hSame, _⟩ | hNone
      · exact ⟨d', hd', hSame.trans hId⟩
      · exact absurd hId.symm (hNone a ha)
    rcases h.audits with hOld | ⟨c, destinations, _, hRecorded⟩
    · obtain ⟨d, hd, hId⟩ := hBefore.destination a (hOld a ha)
      exact hKept d hd hId
    · rcases (hRecorded.audits a).mp ha with hOld | ⟨d, hd, hNew⟩
      · obtain ⟨d, hd, hId⟩ := hBefore.destination a hOld
        exact hKept d hd hId
      · obtain ⟨_, d', hGet, hSame⟩ := hRecorded.aliases d hd
        refine hKept d' (Table.mem_of_get hGet) ?_
        rw [hNew]
        exact hSame

theorem referenced_of_path {es : List LogEntry} {db : Database} {t : Nat}
    (h : Path (Legal services ring) emptyDatabase 0 es db t) : db.Referenced :=
  h.preserves (P := fun (db : Database) _ => db.Referenced) (fun _ _ _ _ hSame => hSame)
    (fun _ _ hLegal hHere => hLegal.referenced hHere) ⟨fun d hd => (by cases hd),
      fun a ha => by cases ha⟩

theorem Sound.referenced (h : (ledger services ring).Sound s) : s.db.Referenced :=
  referenced_of_path h.1

/-! ## What a lock holder relies on -/

section Rely

variable (h : (discipline services ring).Rely held s s')

include h

/-- The entries since then, which spare what is held. -/
theorem rely_entries : ∃ es, s'.history = s.history ++ es ∧
    Path (Legal services ring) s.db s.now es s'.db s'.now ∧
    ∀ r, held r → ∀ e ∈ es, Respects r e := by
  obtain ⟨⟨es, hHistory, hPath⟩, _⟩ := h.evolves
  refine ⟨es, hHistory, hPath, fun r hr e he => ?_⟩
  have hNew : s'.history.drop s.history.length = es := by simp [hHistory]
  exact (h.keeps r hr).1 e (hNew ▸ he)

theorem rely_preserves {P : Database → Prop}
    (hStep : ∀ e, Legal services ring e → (∀ r, held r → Respects r e) →
    P e.before → P e.after) (hStart : P s.db) : P s'.db := by
  obtain ⟨es, _, hPath, hRespects⟩ := rely_entries h
  exact hPath.preserves (P := fun (db : Database) _ => P db) (fun _ _ _ _ hSame => hSame)
    (fun e he hLegal hHere => hStep e hLegal (fun r hr => hRespects r hr e he) hHere) hStart

theorem rely_audits {operationId : String} (hHeld : held (.recoveryOperation operationId)) :
    ∀ a ∈ s'.db.auditsOf operationId, a ∈ s.db.auditsOf operationId :=
  rely_preserves h (P := fun db => ∀ a ∈ db.auditsOf operationId, a ∈ s.db.auditsOf operationId)
    (fun e _ hRespects hHere a ha => by
      simp only [Database.auditsOf, Table.mem_select, decide_eq_true_eq] at hHere ha ⊢
      exact hHere a ⟨hRespects _ hHeld a ha.1 ha.2, ha.2⟩)
    fun _ ha => ha

theorem rely_alias {alias_ : RecipientHash} (hHeld : held (.destination alias_))
    {d : EmailDestination} (hGet : s.db.destinations.get alias_ = some d) :
    ∃ d', s'.db.destinations.get alias_ = some d' ∧ d'.id = d.id :=
  rely_preserves h (P := fun db => ∃ d', db.destinations.get alias_ = some d' ∧ d'.id = d.id)
    (fun e _ hRespects ⟨d₁, hGet₁, hId₁⟩ => by
      obtain ⟨d₂, hGet₂, hId₂⟩ := (hRespects _ hHeld).1 d₁ hGet₁
      exact ⟨d₂, hGet₂, hId₂.trans hId₁⟩)
    ⟨d, hGet, rfl⟩

theorem rely_unaudited {alias_ : RecipientHash} (hHeld : held (.destination alias_))
    {d : EmailDestination} (hGet : s.db.destinations.get alias_ = some d) :
    ∀ a ∈ s'.db.audits.rows, a.destinationId = d.id → a ∈ s.db.audits.rows := by
  have hBoth : (∃ d', s'.db.destinations.get alias_ = some d' ∧ d'.id = d.id) ∧
      ∀ a ∈ s'.db.audits.rows, a.destinationId = d.id → a ∈ s.db.audits.rows := by
    refine rely_preserves h (P := fun db =>
      (∃ d', db.destinations.get alias_ = some d' ∧ d'.id = d.id) ∧
      ∀ a ∈ db.audits.rows, a.destinationId = d.id → a ∈ s.db.audits.rows)
        (fun e _ hRespects hHere => ?_)
      ⟨⟨d, hGet, rfl⟩, fun a ha _ => ha⟩
    obtain ⟨⟨d₁, hGet₁, hId₁⟩, hAudits⟩ := hHere
    obtain ⟨d₂, hGet₂, hId₂⟩ := (hRespects _ hHeld).1 d₁ hGet₁
    refine ⟨⟨d₂, hGet₂, hId₂.trans hId₁⟩, fun a ha hId => ?_⟩
    exact hAudits a ((hRespects _ hHeld).2 d₁ hGet₁ a ha (hId.trans hId₁.symm)) hId
  exact hBoth.2

end Rely

/-! ## Entries that change nothing -/

theorem guarantee_unchanged {e : LogEntry} (hSound : (ledger services ring).Sound s)
    (hKeyed : e.after.Keyed) (hBefore : e.before = s.db) (hEnded : e.endedAt = s.now)
    (hAfter : e.after = s.db) (hJudged : Judged services ring s.history e) :
    (discipline services ring).Guarantee held s (s.record e) := by
  rw [← hBefore] at hAfter
  have hLegal : Legal services ring e := {
    keyed := hKeyed
    kept := fun _ => hAfter
    audits := .inl fun a ha => hAfter ▸ ha
    aliases := fun d hd => .inl ⟨d, by rw [hAfter]; exact hd, rfl, rfl⟩ }
  refine Ledger.guarantee_record hSound hBefore hEnded hLegal (orderly_record hSound.2 hJudged)
    (fun r _ => ?_)
    (fun _ _ => trivial) fun _ _ _ => trivial
  cases r with
  | recoveryOperation operationId => exact fun a ha _ => hAfter ▸ ha
  | destination alias_ =>
    exact ⟨fun d hGet => ⟨d, by rw [hAfter, hGet], rfl⟩, fun _ _ a ha _ => hAfter ▸ ha⟩
  | _ => trivial

theorem safe_any {call : Call} {l : Local notifications} :
    Safe (discipline services ring) call l s := by
  refine fun s' hRely tx _ hKeyed =>
    ⟨guarantee_unchanged hRely.inv hKeyed rfl rfl rfl fun c _ hError => ?_, fun _ _ => trivial⟩
  exact absurd rfl hError

end Pixaeron.Notifications
