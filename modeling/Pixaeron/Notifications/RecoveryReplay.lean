import Pixaeron.Transactions.Endings
import Pixaeron.Notifications.Arrivals
import Pixaeron.Notifications.Verified.Calm
import Pixaeron.Notifications.Verified.Cleanup
import Pixaeron.Notifications.Verified.Recovery

/-! # Repeated recovery commands

As long as the audits of a command are kept, its operation belongs to it: the same command
succeeds again and does nothing, any other is refused.
-/

namespace Pixaeron.Notifications

open Transactions Transactions.Script

/-- The system while no other keys are deployed. -/
def steady (services : EmailServices) : World.Program notifications Call Outcome := fun call s =>
  match call with
  | .deploy _ => none
  | _ => system services call s

variable {services : EmailServices} {ring : KeyRing}

theorem wp_quiet {call : Call} {s : Shared notifications Call}
    {script : Script notifications Outcome} (hCommand : call.command = none)
    (hQuiet : Quiet script) :
    Wp (discipline services ring) call script (fun _ _ _ => True) (.outside []) s :=
  Wp.of_writes (harmless hCommand) hQuiet fun tx hTx => by cases hTx

theorem wp_outcome {α : Type} {call : Call} {s : Shared notifications Call}
    {script : Script notifications α} {outcome : α → Outcome}
    (hSound : (ledger services ring).Sound s)
    (h : Wp (discipline services ring) call script (fun _ _ _ => True) (.outside []) s) :
    Wp (discipline services ring) call (script.bind fun a => .done (outcome a)) (fun _ _ _ => True)
      (.outside []) s :=
  Wp.bind hSound (h.mono fun _ _ _ _ _ => Wp.done safe_any fun _ _ => trivial)

theorem verified_steady : Verified (discipline services ring) (steady services) where
  tick s ms hSound :=
    Ledger.guarantee_tick hSound ⟨hSound.2.keys, hSound.2.judged⟩ (fun _ => trivial) fun _ _ =>
      trivial
  spawn s call ext script hSound h := by
    have hSame : (discipline services ring).Guarantee (fun _ => False) s (s.setExt s.ext) :=
      Ledger.guarantee_setExt hSound hSound.2 trivial (fun _ _ => trivial) fun _ _ _ => trivial
    have hKeys := hSound.2.keys
    cases call with
    | deploy ring' => cases h
    | send request deadlineAt drawn polls =>
      cases h
      exact ⟨hSame, wp_quiet rfl (quiet_sendSecurityEmail.bind fun _ => trivial)⟩
    | processFeedback feedback drawn =>
      cases h
      exact ⟨hSame, wp_quiet rfl (quiet_processFeedback.bind fun _ => trivial)⟩
    | expireStaleClaims =>
      cases h
      exact ⟨hSame, wp_quiet rfl (quiet_expireStaleClaims.bind fun _ => trivial)⟩
    | requestRecovery recipient evidence =>
      cases h
      rw [hKeys]
      exact ⟨hSame, wp_outcome hSound (wp_transition (c := ⟨recipient,
        ⟨.suppressed, .recoveryPending, .requested⟩, evidence⟩) rfl)⟩
    | completeRecovery recipient evidence =>
      cases h
      rw [hKeys]
      exact ⟨hSame, wp_outcome hSound (wp_transition (c := ⟨recipient,
        ⟨.recoveryPending, .active, .completed⟩, evidence⟩) rfl)⟩
    | failRecovery recipient evidence =>
      cases h
      rw [hKeys]
      exact ⟨hSame, wp_outcome hSound (wp_transition (c := ⟨recipient,
        ⟨.recoveryPending, .suppressed, .failed⟩, evidence⟩) rfl)⟩
    | cleanupExpiredHistory =>
      cases h
      rw [hKeys]
      exact ⟨hSame, wp_outcome hSound wp_cleanupExpiredHistory⟩

theorem sound_of_run {now : Nat} {w : World notifications Call Outcome}
    (h : World.Leads (steady services) (start now ring) w)
    (hKeyed : ∀ e ∈ w.shared.history, e.after.Keyed) :
    (ledger services ring).Sound w.shared := by
  have hStart : (ledger services ring).Sound (start now ring).shared :=
    ⟨.rest (Nat.zero_le _), rfl, fun past e later hSplit => by simp [start, World.idle] at hSplit⟩
  exact ((World.meets_idle hStart fun _ => trivial).leads verified_steady h hKeyed).1.inv

/-! ## What commands return -/

/-- The commands do the same to the same mailbox. -/
def SameCommand (services : EmailServices) (c c' : RecoveryCommand) : Prop :=
  services.normalizeEmail c'.recipient = services.normalizeEmail c.recipient ∧
    c'.change = c.change ∧ c'.evidence = c.evidence

/-- The command has been carried out. -/
def Committed (e : LogEntry) (c : RecoveryCommand) : Prop :=
  e.call.command = some c ∧ e.error = none ∧ e.after ≠ e.before

def KeepsAudits (operationId : String) (e : LogEntry) : Prop :=
  ∀ a ∈ e.before.audits.rows, a.operationId = operationId → a ∈ e.after.audits.rows

theorem mem_auditsOf {db : Database} {operationId : String} {a : EmailRecoveryAudit} :
    a ∈ db.auditsOf operationId ↔ a ∈ db.audits.rows ∧ a.operationId = operationId := by
  rw [Database.auditsOf, Table.mem_select, decide_eq_true_eq]

theorem Judged.recorded {past : List LogEntry} {e : LogEntry} {c : RecoveryCommand}
    (h : Judged services ring past e) (hCommitted : Committed e c) :
    ∃ destinations, Recorded services ring e c destinations := by
  obtain ⟨hCommand, hError, hChanged⟩ := hCommitted
  obtain ⟨_, _, _, _, _, db, t, db', t', _, _, hVerdict⟩ := h c hCommand (by rw [hError]; simp)
  cases hVerdict with
  | unknown _ hFailed => cases hError.symm.trans hFailed
  | replayed _ _ _ hSame => exact absurd hSame hChanged
  | conflict _ _ hFailed => cases hError.symm.trans hFailed
  | first _ hRecorded => exact ⟨_, hRecorded hError⟩

/-- The audits of the operation are still those that the entry has left, about rows of its
recipient. -/
structure StillRecorded (services : EmailServices) (ring : KeyRing) (e : LogEntry)
    (c : RecoveryCommand) (db : Database) :
    Prop where
  audits : ∀ a, a ∈ db.auditsOf c.evidence.operationId ↔ a ∈ e.after.auditsOf c.evidence.operationId
  aliases : ∀ a ∈ e.after.auditsOf c.evidence.operationId, ∃ d ∈ db.destinations.rows,
    d.id = a.destinationId ∧ d.recipientHash ∈ services.createLookupHashes ring c.recipient

section Recorded

variable {e : LogEntry} {c : RecoveryCommand} {destinations : List EmailDestination}

theorem Recorded.mem_auditsOf (h : Recorded services ring e c destinations)
    (a : EmailRecoveryAudit) :
    a ∈ e.after.auditsOf c.evidence.operationId ↔
      ∃ d ∈ destinations, a = newAudit c.change c.evidence e.startedAt d := by
  rw [Notifications.mem_auditsOf, h.audits]
  constructor
  · rintro ⟨hOld | hNew, hSame⟩
    · exact absurd hSame (h.fresh a hOld)
    · exact hNew
  · rintro ⟨d, hd, rfl⟩
    exact ⟨.inr ⟨d, hd, rfl⟩, rfl⟩

theorem Recorded.audited (h : Recorded services ring e c destinations) :
    ∃ a, a ∈ e.after.auditsOf c.evidence.operationId := by
  obtain ⟨d, hd⟩ := List.exists_mem_of_ne_nil _ h.nonempty
  exact ⟨_, (h.mem_auditsOf _).mpr ⟨d, hd, rfl⟩⟩

theorem Recorded.still (h : Recorded services ring e c destinations)
    (hLegal : Legal services ring e) :
    StillRecorded services ring e c e.after where
  audits _ := Iff.rfl
  aliases a ha := by
    obtain ⟨d, hd, rfl⟩ := (h.mem_auditsOf a).mp ha
    obtain ⟨hLookup, d', hGet, hId⟩ := h.aliases d hd
    rcases hLegal.aliases d' (Table.mem_of_get hGet) with ⟨d'', hMem, hSameId, hSameHash⟩ | hNone
    · refine ⟨d'', hMem, hSameId.trans hId, ?_⟩
      rw [hSameHash, Table.key_of_get hGet]
      exact hLookup
    · exact absurd hId.symm (hNone _ (Notifications.mem_auditsOf.mp ha).1)

/-- Entries that keep the audits of the operation keep the operation as it is. -/
theorem StillRecorded.step {e' : LogEntry} (hRecorded : Recorded services ring e c destinations)
    (hLegal : Legal services ring e') (hKeeps : KeepsAudits c.evidence.operationId e')
    (h : StillRecorded services ring e c e'.before) : StillRecorded services ring e c e'.after := by
  have hKept (a : EmailRecoveryAudit) (ha : a ∈ e'.before.auditsOf c.evidence.operationId) :
      a ∈ e'.after.auditsOf c.evidence.operationId := by
    obtain ⟨hMem, hSame⟩ := Notifications.mem_auditsOf.mp ha
    exact Notifications.mem_auditsOf.mpr ⟨hKeeps a hMem hSame, hSame⟩
  constructor
  · refine fun a => ⟨fun ha => ?_, fun ha => hKept a ((h.audits a).mpr ha)⟩
    obtain ⟨hMem, hSame⟩ := Notifications.mem_auditsOf.mp ha
    have hOld : a ∈ e'.before.audits.rows := by
      rcases hLegal.audits with hOld | ⟨c', destinations', _, hRecorded'⟩
      · exact hOld a hMem
      · rcases (hRecorded'.audits a).mp hMem with hOld | ⟨d, _, rfl⟩
        · exact hOld
        · obtain ⟨a', ha'⟩ := hRecorded.audited
          obtain ⟨hMem', hSame'⟩ := Notifications.mem_auditsOf.mp ((h.audits a').mpr ha')
          exact absurd (hSame'.trans hSame.symm) (hRecorded'.fresh a' hMem')
    exact (h.audits a).mp (Notifications.mem_auditsOf.mpr ⟨hOld, hSame⟩)
  · intro a ha
    obtain ⟨d, hMem, hId, hLookup⟩ := h.aliases a ha
    rcases hLegal.aliases d hMem with ⟨d', hMem', hSameId, hSameHash⟩ | hNone
    · exact ⟨d', hMem', hSameId.trans hId, hSameHash ▸ hLookup⟩
    · exact absurd hId.symm
        (hNone a (Notifications.mem_auditsOf.mp (hKept a ((h.audits a).mpr ha))).1)

theorem StillRecorded.path {es : List LogEntry} {db : Database} {t t' : Nat}
    (hRecorded : Recorded services ring e c destinations) (hLegal : Legal services ring e)
    (hPath : Path (Legal services ring) e.after t es db t')
    (hKeeps : ∀ e' ∈ es, KeepsAudits c.evidence.operationId e') :
    StillRecorded services ring e c db :=
  hPath.preserves (P := fun (db : Database) _ => StillRecorded services ring e c db)
    (fun _ _ _ _ hSame => hSame)
    (fun e' he' hLegal' hHere => hHere.step hRecorded hLegal' (hKeeps e' he'))
      (hRecorded.still hLegal)

end Recorded

/-! ## Replays -/

theorem foldl_max_le {revisions : List Nat} {start n : Nat} :
    revisions.foldl max start ≤ n ↔ start ≤ n ∧ ∀ r ∈ revisions, r ≤ n := by
  induction revisions generalizing start with
  | nil => simp
  | cons r rest ih =>
    rw [List.foldl_cons, ih, Nat.max_le, List.forall_mem_cons, and_assoc]

theorem maximumRevision_congr {revisions revisions' : List Nat}
    (h : ∀ r, r ∈ revisions ↔ r ∈ revisions') :
    maximumRevision revisions = maximumRevision revisions' := by
  have hLe {left right : List Nat} (hSub : ∀ r, r ∈ left → r ∈ right) :
      maximumRevision left ≤ maximumRevision right :=
    foldl_max_le.mpr ⟨Nat.zero_le _, fun r hr => (foldl_max_le.mp le_rfl).2 r (hSub r hr)⟩
  exact le_antisymm (hLe fun r => (h r).mp) (hLe fun r => (h r).mpr)

theorem createLookupHashes_congr {recipient recipient' : String}
    (h : services.normalizeEmail recipient' = services.normalizeEmail recipient) :
    services.createLookupHashes ring recipient' = services.createLookupHashes ring recipient := by
  rw [Services.createLookupHashes, h]
  rfl

theorem normalizeEmail_of_lookup (hHmac : ∀ key text text',
      services.hmac key text = services.hmac key text' → text = text')
    {recipient recipient' : String} {alias_ : RecipientHash}
    (h : alias_ ∈ services.createLookupHashes ring recipient)
    (h' : alias_ ∈ services.createLookupHashes ring recipient') :
    services.normalizeEmail recipient' = services.normalizeEmail recipient := by
  obtain ⟨key, hKey, rfl⟩ := List.mem_map.mp h
  obtain ⟨key', hKey', hSame⟩ := List.mem_map.mp h'
  obtain ⟨hValue, hVersion⟩ := (RecipientHash.mk.injEq ..).mp hSame
  have hOne : key' = key :=
    List.inj_on_of_nodup_map (Services.lookupKeys_nodup ring) hKey' hKey hVersion
  subst hOne
  exact hHmac _ _ _ hValue

section Replays

variable {e : LogEntry} {c c' : RecoveryCommand} {recorded : List EmailDestination}
  {db db' : Database}

theorem Recorded.revisions (h : Recorded services ring e c recorded)
    {audits : List EmailRecoveryAudit} (hAudits : ∀ a,
      a ∈ audits ↔ a ∈ e.after.auditsOf c.evidence.operationId) :
    (maximumRevision (audits.map EmailRecoveryAudit.suppressionRevision) : Int) =
      c.evidence.expectedSuppressionRevision := by
  rw [← h.revision]
  congr 1
  refine maximumRevision_congr fun r => ?_
  simp only [List.mem_map, hAudits, h.mem_auditsOf]
  constructor
  · rintro ⟨a, ⟨d, hd, rfl⟩, rfl⟩
    exact ⟨d, hd, rfl⟩
  · rintro ⟨d, hd, rfl⟩
    exact ⟨_, ⟨d, hd, rfl⟩, rfl⟩

/-- The same command is recognised, whatever the mailbox has become. -/
theorem isExactReplay_of_same (h : Recorded services ring e c recorded)
    (hAliases : StillRecorded services ring e c db) (hAudits : StillRecorded services ring e c db')
    (hSame : SameCommand services c c') :
    isExactReplay (db'.auditsOf c.evidence.operationId)
      (db.aliases (services.createLookupHashes ring c'.recipient))
      c'.change c'.evidence = true := by
  obtain ⟨hRecipient, hChange, hEvidence⟩ := hSame
  rw [createLookupHashes_congr hRecipient, hChange, hEvidence]
  simp only [isExactReplay, Bool.and_eq_true, decide_eq_true_eq, List.all_eq_true]
  refine ⟨h.revisions hAudits.audits, fun a ha => ?_⟩
  have hHere := (hAudits.audits a).mp ha
  obtain ⟨d, hMem, hId, hLookup⟩ := hAliases.aliases a hHere
  obtain ⟨_, _, rfl⟩ := (h.mem_auditsOf a).mp hHere
  refine ⟨⟨⟨⟨⟨⟨⟨List.mem_map.mpr ⟨d, ?_, hId⟩, rfl⟩, rfl⟩, rfl⟩, rfl⟩, rfl⟩, rfl⟩, rfl⟩
  exact Table.mem_select.mpr ⟨hMem, decide_eq_true hLookup⟩

theorem same_of_isExactReplay (hHmac : ∀ key text text',
      services.hmac key text = services.hmac key text' → text = text')
    (h : Recorded services ring e c recorded) (hKeyed : db.Keyed)
    (hAliases : StillRecorded services ring e c db) (hAudits : StillRecorded services ring e c db')
    (hOperation : c'.evidence.operationId = c.evidence.operationId)
    (hReplay : isExactReplay (db'.auditsOf c.evidence.operationId)
      (db.aliases (services.createLookupHashes ring c'.recipient)) c'.change c'.evidence = true) :
      SameCommand services c c' := by
  simp only [isExactReplay, Bool.and_eq_true, decide_eq_true_eq, List.all_eq_true] at hReplay
  obtain ⟨hRevision, hAll⟩ := hReplay
  obtain ⟨a, hHere⟩ := h.audited
  obtain ⟨⟨⟨⟨⟨⟨⟨hId, hAction⟩, hActor⟩, hReason⟩, hReference⟩, hRequest⟩, hPrevious⟩, hNext⟩ :=
    hAll a ((hAudits.audits a).mpr hHere)
  obtain ⟨d, hMem, hOwn, hLookup⟩ := hAliases.aliases a hHere
  obtain ⟨d', hSelected, hOwn'⟩ := List.mem_map.mp hId
  obtain ⟨hMem', hLookup'⟩ := Table.mem_select.mp hSelected
  have hOne : d' = d := hKeyed d hMem d' hMem' (hOwn'.trans hOwn.symm)
  subst hOne
  obtain ⟨_, _, rfl⟩ := (h.mem_auditsOf a).mp hHere
  refine ⟨normalizeEmail_of_lookup hHmac hLookup (of_decide_eq_true hLookup'), ?_, ?_⟩
  · obtain ⟨recipient, ⟨expected, next, action⟩, evidence⟩ := c'
    cases hAction
    cases hPrevious
    cases hNext
    rfl
  · have hExpected := hRevision.symm.trans (h.revisions hAudits.audits)
    obtain ⟨recipient, change, ⟨operationId, revision, actorId, reasonCode, evidenceReference,
      providerRequestId⟩⟩ := c'
    cases hOperation
    cases hExpected
    cases hActor
    cases hReason
    cases hReference
    cases hRequest
    rfl

theorem Recorded.verdict (hHmac : ∀ key text text',
      services.hmac key text = services.hmac key text' → text = text')
    (h : Recorded services ring e c recorded) (hKeyed : db.Keyed)
    (hAliases : StillRecorded services ring e c db) (hAudits : StillRecorded services ring e c db')
    (hOperation : c'.evidence.operationId = c.evidence.operationId) {e' : LogEntry}
    (hVerdict : Verdict services ring c'
      (db.aliases (services.createLookupHashes ring c'.recipient))
      (db'.auditsOf c'.evidence.operationId) e') :
    (SameCommand services c c' → e'.error = none ∧ e'.after = e'.before) ∧
    (¬ SameCommand services c c' → e'.error ≠ none) := by
  rw [hOperation] at hVerdict
  have hSome : db'.auditsOf c.evidence.operationId ≠ [] := by
    obtain ⟨a, ha⟩ := h.audited
    exact List.ne_nil_of_mem ((hAudits.audits a).mpr ha)
  cases hVerdict with
  | unknown hNone hError =>
    refine ⟨fun hSame => ?_, fun _ => by simp [hError]⟩
    obtain ⟨a, ha⟩ := h.audited
    obtain ⟨d, hMem, _, hLookup⟩ := hAliases.aliases a ha
    rw [← createLookupHashes_congr hSame.1] at hLookup
    have hFound : d ∈ db.aliases (services.createLookupHashes ring c'.recipient) :=
      Table.mem_select.mpr ⟨hMem, decide_eq_true hLookup⟩
    rw [hNone] at hFound
    cases hFound
  | replayed _ hReplay hError hAfter =>
    exact ⟨fun _ => ⟨hError, hAfter⟩, fun hOther => absurd
      (same_of_isExactReplay hHmac h hKeyed hAliases hAudits hOperation hReplay) hOther⟩
  | conflict _ hReplay hError =>
    refine ⟨fun hSame => ?_, fun _ => by simp [hError]⟩
    cases (isExactReplay_of_same h hAliases hAudits hSame).symm.trans hReplay
  | first hNone _ => exact absurd hNone hSome

end Replays

/-! ## Runs -/

namespace Sample

/-- Services for which the two spellings of one address are one mailbox. -/
def emailServices : EmailServices where
  toServices := { Sample.services with
    toLowerCase := fun text => if text = "User@example.com" then "user@example.com" else text }
  createTokenFingerprint := id
  isUUIDv4 text := text = "7f9c24e5-2f6b-4d3a-9c1e-0a1b2c3d4e5f"

def evidence : RecoveryEvidence where
  operationId := "7f9c24e5-2f6b-4d3a-9c1e-0a1b2c3d4e5f"
  expectedSuppressionRevision := 1
  actorId := "operator"
  reasonCode := "MAILBOX_REPAIRED"
  evidenceReference := "ticket"
  providerRequestId := none

def requested (recipient : String) : RecoveryCommand :=
  ⟨recipient, ⟨.suppressed, .recoveryPending, .requested⟩, evidence⟩

def runsOf (sid n : Nat) : List (Action notifications Call) := List.replicate n (.run sid)

/-- A bounce suppresses the mailbox and a request for its recovery is carried out; another request
with the same evidence, for `recipient`, is about to commit. -/
def requests (recipient : String) : List (Action notifications Call) :=
  .spawn 0 (.send ⟨"request", "subject", "user@example.com", .passwordReset, "token",
    1⟩ none "delivery" 1) :: runsOf 0 7 ++
    .spawn 1 (.processFeedback { hardBounce with recipient := "user@example.com" }
      ⟨"event", fun a => a.value⟩) :: runsOf 1 18 ++
    .spawn 2 (.requestRecovery "user@example.com" evidence) :: runsOf 2 7 ++
    .spawn 3 (.requestRecovery recipient evidence) :: runsOf 3 4

/-- The last commit, the command that is about to end, and what its last step leaves. -/
structure Observation where
  committed : Option (Option RecoveryCommand)
  failed : Option (Option Failure)
  unchanged : Option Bool
  repeated : Option (Option RecoveryCommand)
  keyed : Bool
  succeeded : Option Bool
deriving DecidableEq

def observed (recipient : String) : Option Observation :=
  (World.run (steady emailServices) (start 0 Sample.ring) (requests recipient)).bind fun w =>
    (World.step (steady emailServices) w (.run 3)).map fun w' =>
      { committed := w.shared.history.getLast?.map fun e => e.call.command
        failed := w.shared.history.getLast?.map Entry.error
        unchanged :=
          w.shared.history.getLast?.map fun e => decide (e.after.audits.rows = e.before.audits.rows)
        repeated := (w.sessions 3).map fun session => session.call.command
        keyed := decide (∀ e ∈ w'.shared.history, e.after.Keyed)
        succeeded :=
          (w'.returned 3).map fun outcome => match outcome with
            | .finished (.ok _) => true
            | _ => false }

end Sample

end Pixaeron.Notifications
