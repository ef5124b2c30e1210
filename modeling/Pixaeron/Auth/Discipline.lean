import Pixaeron.Transactions.Rules
import Pixaeron.Auth.Consistency

/-! # The discipline of the auth system

What a lock holder may rely on, and what a commit owes to the others. That a session is revoked
for reuse is also tied to what the call has read before.
-/

namespace Pixaeron.Auth

open Transactions

/-- The entry leaves the locked row alone, and does not create it; under the lock of a user nobody
signs in as that user with a password. -/
def Respects : Resource → LogEntry → Prop
  | .user id, e => (∀ u, e.before.users.get id = some u → e.after.users.get id = some u) ∧
    ∀ sessionId hash, (sessionId, hash) ∈ e.after.signIns → (sessionId, hash) ∈ e.before.signIns ∨
      ∀ s, e.after.sessions.get sessionId = some s → s.userId ≠ id
  | .session id, e => (∀ s, e.before.sessions.get id = some s → e.after.sessions.get id = some s) ∧
    (id ∉ e.before.issuedSessions → id ∉ e.after.issuedSessions)
  | .token id, e => (∀ t, e.before.tokens.get id = some t → e.after.tokens.get id = some t) ∧
    (id ∉ e.before.issuedTokens → id ∉ e.after.issuedTokens)
  | _, _ => True

/-- The session is revoked for reuse of a refresh token. -/
def RevokesForReuse (e : LogEntry) (id : String) : Prop :=
  ∃ s s', e.before.sessions.get id = some s ∧ e.after.sessions.get id = some s' ∧
    s.revokedReason ≠ some .refreshReuse ∧ s'.revokedReason = some .refreshReuse

/-- The call has read a consumed token and then a session that some later token has been rotated
into, or the token was consumed long ago. -/
def Suspicious (past : List LogEntry) (call : Call) (id : String) : Prop :=
  ∃ now cookie metadata drawn parsed, call = .refreshSession now cookie metadata drawn ∧
    parseRefreshToken cookie = some parsed ∧ parsed.sessionId = id ∧
    ∃ earlier read later t s consumedAt, past = earlier ++ read :: later ∧
      (∃ found ∈ earlier, found.before.tokens.get parsed.tokenId = some t) ∧
      t.sessionId = id ∧ t.consumedAt = some consumedAt ∧
      read.call = call ∧ read.saw .findSession = some read.before ∧
        read.before.sessions.get id = some s ∧
      ¬ (s.rotatedAt = some consumedAt ∧ reuseAge now consumedAt ≤ refreshReuseGraceMs)

/-- Whoever revokes a session for reuse has reason to. -/
def Traffic (s : Shared auth Call) : Prop :=
  ∀ past e later, s.history = past ++ e :: later → ∀ id,
    RevokesForReuse e id → Suspicious past e.call id

theorem Traffic.record {s : Shared auth Call} {e : LogEntry} (h : Traffic s)
    (hNew : ∀ id, RevokesForReuse e id → Suspicious s.history e.call id) :
    Traffic (s.record e) := by
  intro past e' later hSplit id hRevokes
  rw [Shared.record_history] at hSplit
  rcases List.append_eq_append_iff.mp hSplit with ⟨a, hPast, hRest⟩ | ⟨a, hHistory, hRest⟩
  · cases a with
    | nil =>
      rw [List.nil_append, List.cons.injEq] at hRest
      rw [hPast, List.append_nil]
      exact hRest.1 ▸ hNew id (hRest.1 ▸ hRevokes)
    | cons b rest => simp at hRest
  · cases a with
    | nil =>
      rw [List.nil_append, List.cons.injEq] at hRest
      rw [List.append_nil] at hHistory
      rw [← hHistory, hRest.1]
      exact hNew id (hRest.1 ▸ hRevokes)
    | cons b rest =>
      rw [List.cons_append, List.cons.injEq] at hRest
      obtain ⟨rfl, _⟩ := hRest
      exact h past _ rest hHistory id hRevokes

variable (services : Services) (genesis : Genesis)

def ledger : Ledger auth Call where
  genesis := genesis.rows
  Legal := Legal services
  Respects := Respects
  Moves _ _ := True
  Spares _ _ _ := True
  Traffic := Traffic
  Free _ _ := True
  Assume _ := True
  moves_refl _ := trivial
  moves_trans _ _ _ _ _ := trivial
  spares_refl _ _ := trivial
  spares_trans _ _ _ _ _ _ _ _ _ := trivial

abbrev discipline : Discipline auth Call := (ledger services genesis).discipline

variable {services genesis} {s s' : Shared auth Call} {held : Resource → Prop}

theorem consistent_of_reached {db : Database} {t : Nat}
    (h : (ledger services genesis).Reached db t) :
    Consistent db :=
  h.holds (P := fun (db : Database) _ => Consistent db) genesis.fresh.consistent
    (fun _ _ _ _ hSame => hSame)
    fun _ hLegal hCons => hCons.step hLegal

theorem Sound.consistent (h : (ledger services genesis).Sound s) : Consistent s.db :=
  consistent_of_reached h.reached

/-! ## What a lock holder relies on -/

section Rely

variable (h : (discipline services genesis).Rely held s s')

include h

theorem rely_later : Later s.db s'.db := by
  obtain ⟨⟨es, _, hPath⟩, _⟩ := h.evolves
  exact later_of_path hPath

theorem rely_extends : s.history <+: s'.history := by
  obtain ⟨⟨es, hHistory, _⟩, _⟩ := h.evolves
  exact ⟨es, hHistory.symm⟩

theorem rely_now : s.now ≤ s'.now := Ledger.rely_now h

theorem rely_preserves {P : Database → Prop}
    (hStep : ∀ e, Legal services e → Consistent e.before → (∀ r, held r → Respects r e) →
      P e.before → P e.after) (hStart : P s.db) : P s'.db :=
  Ledger.rely_preserves h (P := fun (db : Database) _ => P db) (fun _ _ _ _ hSame => hSame)
    (fun e hLegal hReached hRespects hHere => hStep e hLegal
      (consistent_of_reached hReached) hRespects hHere) hStart

theorem rely_session {id : String} (hHeld : held (.session id)) {row : Session}
    (hGet : s.db.sessions.get id = some row) : s'.db.sessions.get id = some row :=
  rely_preserves h (P := fun db => db.sessions.get id = some row)
    (fun _ _ _ hRespects hHere => (hRespects _ hHeld).1 row hHere) hGet

theorem rely_token {id : String} (hHeld : held (.token id)) {row : SessionRefreshToken}
    (hGet : s.db.tokens.get id = some row) : s'.db.tokens.get id = some row :=
  rely_preserves h (P := fun db => db.tokens.get id = some row)
    (fun _ _ _ hRespects hHere => (hRespects _ hHeld).1 row hHere) hGet

theorem rely_new_session {id : String} (hHeld : held (.session id))
    (hNew : id ∉ s.db.issuedSessions) :
    id ∉ s'.db.issuedSessions :=
  rely_preserves h (P := fun db => id ∉ db.issuedSessions)
    (fun _ _ _ hRespects hHere => (hRespects _ hHeld).2 hHere) hNew

theorem rely_new_token {id : String} (hHeld : held (.token id)) (hNew : id ∉ s.db.issuedTokens) :
    id ∉ s'.db.issuedTokens :=
  rely_preserves h (P := fun db => id ∉ db.issuedTokens)
    (fun _ _ _ hRespects hHere => (hRespects _ hHeld).2 hHere) hNew

theorem rely_user {id : Nat} (hHeld : held (.user id)) {row : User}
    (hGet : s.db.users.get id = some row) : s'.db.users.get id = some row :=
  rely_preserves h (P := fun db => db.users.get id = some row)
    (fun _ _ _ hRespects hHere => (hRespects _ hHeld).1 row hHere) hGet

/-- Nobody else signs in with a password as a user whose row is locked. -/
theorem rely_sign_ins {userId : Nat} (hHeld : held (.user userId)) {ids : List String}
    (hStart : ∀ id row, s.db.sessions.get id = some row → row.userId = userId →
      row.revokedAt = none →
      id ∈ ids ∨ ∀ hash, (id, hash) ∉ s.db.signIns) :
    ∀ id row, s'.db.sessions.get id = some row → row.userId = userId → row.revokedAt = none →
      id ∈ ids ∨ ∀ hash, (id, hash) ∉ s'.db.signIns := by
  refine rely_preserves h (P := fun db => ∀ id row,
    db.sessions.get id = some row → row.userId = userId →
    row.revokedAt = none → id ∈ ids ∨ ∀ hash, (id, hash) ∉ db.signIns) ?_ hStart
  intro e hLegal hCons hRespects hHere id row hGet hUser hOpen
  have hLater := hLegal.later
  have hOrigin : (id ∉ e.before.issuedSessions ∨ id ∈ e.before.issuedSessions) :=
    (Classical.em _).symm
  rcases hOrigin with hNew | hOld
  · refine .inr fun hash hMem => ?_
    rcases (hRespects _ hHeld).2 id hash hMem with hBefore | hOther
    · exact hNew (hCons.signIn id hash hBefore)
    · exact hOther row hGet hUser
  · obtain ⟨row₀, hGet₀, hStep⟩ := hLater.session id hOld row hGet
    rcases hHere id row₀ hGet₀ (hStep.userId.symm.trans hUser) (hStep.revoked hOpen) with hMem |
      hNone
    · exact .inl hMem
    · exact .inr fun hash hMem => hNone hash (hLater.signIns id hOld hash hMem)

end Rely

/-! ## What a commit owes -/

theorem Effect.respects {e : LogEntry} {effect : Effect} (hCons : Consistent e.before)
    (hAllowed : effect.Allowed services e) (hAfter : e.after = effect.apply e.before) {r : Resource}
    (hApart : ¬ effect.Touches e.before r) : Respects r e := by
  cases r with
  | user id =>
    constructor
    · intro u hGet
      rw [hAfter, Effect.get_user_apply]
      cases effect with
      | reset authTokens userId passwordHash ids now =>
        have hOther : id ≠ userId := fun hSame => hApart (.inr (.inl (by rw [hSame])))
        simp only [hGet, Option.map_some, if_neg hOther]
      | _ => exact hGet
    · intro sessionId hash hMem
      rw [hAfter, Effect.signIns_apply] at hMem
      cases effect with
      | start session token verified =>
        rcases List.mem_append.mp hMem with hNew | hOld
        · obtain ⟨hash', hVerified, hEq⟩ := Option.map_eq_some_iff.mp (Option.mem_toList.mp hNew)
          cases hEq
          refine .inr fun s hGet hSame => hApart (.inr (.inr ⟨?_, ?_⟩))
          · rw [hVerified]
            exact Option.some_ne_none _
          · rw [hAfter, Effect.get_session_apply] at hGet
            have hUser : s = session := by
              rcases Option.or_eq_some_iff.mp hGet with hOld | ⟨_, hNew'⟩
              · exact absurd (hCons.sessionIssued _ _ hOld) hAllowed.1
              · simpa using hNew'.symm
            rw [← hSame, hUser]
        · exact .inl hOld
      | _ => exact .inl hMem
  | session id =>
    constructor
    · intro s hGet
      rw [hAfter, Effect.get_session_apply]
      cases effect with
      | start session token verified => simp only [hGet, Option.some_or]
      | rotate sessionId tokenId next now metadata =>
        have hOther : id ≠ sessionId := fun hSame => hApart (.inl (by rw [hSame]))
        simp only [hGet, Option.map_some, if_neg hOther]
      | revoke ids revokedAt reason =>
        have hOther : id ∉ ids := fun hMem =>
          hApart ⟨id, hMem, by rw [hGet, Option.isSome_some], rfl⟩
        simp only [hGet, Option.map_some, if_neg hOther]
      | reset authTokens userId passwordHash ids now =>
        have hOther : id ∉ ids := fun hMem => hApart (.inr (.inr ⟨id, hMem, rfl⟩))
        simp only [hGet, Option.map_some, if_neg hOther]
      | dropSessions ids =>
        have hOther : id ∉ ids := fun hMem => hApart (.inl ⟨id, hMem, rfl⟩)
        refine Option.filter_eq_some_iff.mpr ⟨hGet, ?_⟩
        rw [Table.key_of_get hGet]
        simpa using hOther
      | _ => exact hGet
    · intro hNew
      rw [hAfter, Effect.issuedSessions_apply]
      cases effect with
      | start session token verified =>
        have hOther : id ≠ session.id := fun hSame => hApart (.inl (by rw [hSame]))
        exact List.not_mem_cons_of_ne_of_not_mem hOther hNew
      | _ => exact hNew
  | token id =>
    constructor
    · intro t hGet
      rw [hAfter, Effect.get_token_apply]
      cases effect with
      | start session token verified => simp only [hGet, Option.some_or]
      | rotate sessionId tokenId next now metadata =>
        have hOther : id ≠ tokenId := fun hSame => hApart (.inr (.inl (by rw [hSame])))
        simp only [hGet, Option.map_some, if_neg hOther, Option.some_or]
      | dropSessions ids =>
        have hOther : t.sessionId ∉ ids := fun hMem =>
          hApart (.inr ⟨t, Table.mem_of_get hGet, hMem, by rw [Table.key_of_get hGet]⟩)
        exact Option.filter_eq_some_iff.mpr ⟨hGet, by simpa using hOther⟩
      | _ => exact hGet
    · intro hNew
      rw [hAfter, Effect.issuedTokens_apply]
      cases effect with
      | start session token verified =>
        have hOther : id ≠ token.id := fun hSame => hApart (.inr (.inl (by rw [hSame])))
        exact List.not_mem_cons_of_ne_of_not_mem hOther hNew
      | rotate sessionId tokenId next now metadata =>
        have hOther : id ≠ next.id := fun hSame => hApart (.inr (.inr (by rw [hSame])))
        exact List.not_mem_cons_of_ne_of_not_mem hOther hNew
      | _ => exact hNew
  | _ => trivial

theorem Effect.not_for_reuse {e : LogEntry} {effect : Effect} (hAllowed : effect.Allowed services e)
    (hAfter : e.after = effect.apply e.before)
    (hOther : ∀ ids revokedAt, effect ≠ .revoke ids revokedAt .refreshReuse) (id : String) :
    ¬ RevokesForReuse e id := by
  rintro ⟨s, s', hGet, hGet', hNot, hReason⟩
  rw [hAfter, Effect.get_session_apply] at hGet'
  cases effect with
  | start session token verified =>
    simp only [hGet, Option.some_or, Option.some.injEq] at hGet'
    exact hNot (hGet' ▸ hReason)
  | rotate sessionId tokenId next now metadata =>
    simp only [hGet, Option.map_some, Option.some.injEq] at hGet'
    subst hGet'
    split at hReason <;> exact hNot hReason
  | revoke ids revokedAt reason =>
    simp only [hGet, Option.map_some, Option.some.injEq] at hGet'
    subst hGet'
    split at hReason
    · cases hReason
      exact hOther ids revokedAt rfl
    · exact hNot hReason
  | reset authTokens userId passwordHash ids now =>
    simp only [hGet, Option.map_some, Option.some.injEq] at hGet'
    subst hGet'
    split at hReason
    · cases hReason
    · exact hNot hReason
  | dropSessions ids =>
    have hOld := (Option.filter_eq_some_iff.mp hGet').1
    rw [hGet, Option.some.injEq] at hOld
    exact hNot (hOld ▸ hReason)
  | _ =>
    rw [hGet, Option.some.injEq] at hGet'
    exact hNot (hGet' ▸ hReason)

/-- The entry records an effect, and whoever records it holds the rows it touches. -/
structure Committing (services : Services) (held : Resource → Prop) (s : Shared auth Call)
    (e : LogEntry) (effect : Effect) : Prop where
  before : e.before = s.db
  endedAt : e.endedAt = s.now
  allowed : effect.Allowed services e
  apply : e.after = effect.apply e.before
  held : ∀ r, effect.Touches e.before r → held r
  justified : ∀ ids revokedAt, effect = .revoke ids revokedAt .refreshReuse →
    ∀ id, RevokesForReuse e id → Suspicious s.history e.call id

theorem Committing.guarantee {e : LogEntry} {effect : Effect}
    (h : Committing services held s e effect) (hSound : (ledger services genesis).Sound s) :
    (discipline services genesis).Guarantee held s (s.record e) := by
  refine Ledger.guarantee_record hSound h.before h.endedAt ⟨effect, h.allowed, h.apply⟩ ?_
    (fun r hr => effect.respects (h.before ▸ Sound.consistent hSound) h.allowed h.apply
      fun hTouches => hr (h.held r hTouches)) (fun _ _ => trivial)
    fun _ _ _ => trivial
  refine hSound.2.record fun id hRevokes => ?_
  by_cases hReuse : ∃ ids revokedAt, effect = .revoke ids revokedAt .refreshReuse
  · obtain ⟨ids, revokedAt, hEq⟩ := hReuse
    exact h.justified ids revokedAt hEq id hRevokes
  · exact absurd hRevokes (effect.not_for_reuse h.allowed h.apply
      (fun ids revokedAt hEq => hReuse ⟨ids, revokedAt, hEq⟩) id)

variable {call : Call} {l : Local auth}

theorem Committing.commits {e : LogEntry} {effect : Effect}
    (h : Committing services held s e effect) (hSound : (ledger services genesis).Sound s)
    {Next : Shared auth Call → Prop}
    (hNext : (discipline services genesis).Rely (fun _ => False) s (s.record e) →
      Next (s.record e)) :
    Commits (discipline services genesis) held s e Next := by
  intro _
  have hGuarantee := h.guarantee hSound
  exact ⟨hGuarantee, fun _ _ => trivial, hNext (hGuarantee.rely_outside hSound)⟩

theorem Committing.also {e : LogEntry} {P : Prop} (effect : Effect)
    (h : Committing services held s e effect) (hNext : Committing services held s e effect → P) :
    (∃ effect, Committing services held s e effect) ∧ P :=
  ⟨⟨effect, h⟩, hNext h⟩

theorem committing_nothing {startedAt : Nat} {reads : List (Statement × Database)}
    {answers replies : List Unit} {error : Option Failure} :
    Committing services held s (s.entry call startedAt reads answers replies error s.db)
      .nothing where
  before := rfl
  endedAt := rfl
  allowed := trivial
  apply := rfl
  held _ h := h.elim
  justified _ _ h := by cases h

theorem safe : Safe (discipline services genesis) call l s := by
  intro s' hRely tx _ _
  have hCommitting : Committing services l.held s'
      (s'.entry call tx.startedAt tx.reads tx.answers l.replies (some .rolledBack) s'.db)
        .nothing := committing_nothing
  exact ⟨hCommitting.guarantee hRely.inv, fun _ _ => trivial⟩

/-! ## Rules for the scripts of the services -/

section Rules

variable {α : Type} {Q : α → Local auth → Shared auth Call → Prop} {replies : List Unit}
  {name : Statement}
  {locks : View auth → List Resource} {write : View auth → Database → Database}
    {next : View auth → Script auth α}

def statementEntry (call : Call) (replies : List Unit) (name : Statement) (s : Shared auth Call)
    (after : Database) :
    LogEntry :=
  s.entry call s.now [(name, s.db)] [] replies none after

theorem saw_statement {name : Statement} {after : Database} :
    (statementEntry call replies name s after).saw name = some s.db := by
  simp [Entry.saw, statementEntry, Shared.entry]

theorem wp_autocommit (h : ∀ s' v, (discipline services genesis).Rely (fun _ => False) s s' →
      v.db = s'.db →
      (∃ effect, Committing services (· ∈ locks v) s'
        (statementEntry call replies name s' (write v s'.db)) effect) ∧
        ((discipline services genesis).Rely (fun _ => False) s'
          (s'.record (statementEntry call replies name s' (write v s'.db))) →
          Wp (discipline services genesis) call (next v) Q (.outside replies)
            (s'.record (statementEntry call replies name s' (write v s'.db))))) :
    Wp (discipline services genesis) call (.sql name locks write next) Q (.outside replies) s := by
  refine Wp.autocommit fun s' v hRely hSees _ => ?_
  obtain ⟨⟨effect, hCommitting⟩, hNext⟩ := h s' v hRely hSees.db
  rw [hSees.db]
  exact hCommitting.commits hRely.inv hNext

theorem wp_read (h : ∀ s' v, (discipline services genesis).Rely (fun _ => False) s s' →
      v.db = s'.db →
      (discipline services genesis).Rely (fun _ => False) s'
      (s'.record (statementEntry call replies name s' s'.db)) →
      Wp (discipline services genesis) call (next v) Q (.outside replies)
        (s'.record (statementEntry call replies name s' s'.db))) :
    Wp (discipline services genesis) call (.sql name (fun _ => []) (fun _ => id) next) Q
      (.outside replies) s :=
  wp_autocommit fun s' v hRely hDb => ⟨⟨.nothing, committing_nothing⟩, h s' v hRely hDb⟩

theorem wp_return {a : α} (h : ∀ s', (discipline services genesis).Rely (fun _ => False) s s' →
      Q a (.outside replies) s') :
    Wp (discipline services genesis) call (.done a) Q (.outside replies) s :=
  Wp.done safe h

theorem wp_fail {error : Failure} : Wp (discipline services genesis) call (.fail error) Q l s := by
  refine Wp.fail safe fun s' hRely tx _ _ => ?_
  have hCommitting : Committing services l.held s'
      (s'.entry call tx.startedAt tx.reads tx.answers l.replies (some error) s'.db) .nothing :=
        committing_nothing
  exact ⟨hCommitting.guarantee hRely.inv, fun _ _ => trivial⟩

theorem wp_require {condition : Prop} [Decidable condition] {error : Failure}
    {k : Unit → Script auth α}
    (h : condition → Wp (discipline services genesis) call (k ()) Q l s) :
    Wp (discipline services genesis) call ((require condition error).bind k) Q l s := by
  unfold require
  split
  · next hTrue => exact h hTrue
  · exact wp_fail

theorem wp_clock {next : Nat → Script auth α}
    (h : ∀ s', (discipline services genesis).Rely l.held s s' →
      Wp (discipline services genesis) call (next s'.now) Q l s') :
    Wp (discipline services genesis) call (.clock next) Q l s :=
  Wp.clock safe h

theorem wp_statement {tx : LocalTx auth} (hTx : l.tx = some tx)
    (h : ∀ s' v, (discipline services genesis).Rely l.held s s' → v.db = tx.pending s'.db →
      Wp (discipline services genesis) call (next v) Q (l.ran tx name locks write v) s') :
    Wp (discipline services genesis) call (.sql name locks write next) Q l s :=
  Wp.statement hTx safe fun s' v hRely _ hSees _ => h s' v hRely hSees.db

theorem wp_commit {tx : LocalTx auth} {next : Script auth α} (hTx : l.tx = some tx)
    (h : ∀ s', (discipline services genesis).Rely l.held s s' →
      (∃ effect, Committing services l.held s'
        (s'.entry call tx.startedAt tx.reads tx.answers l.replies none (tx.pending s'.db)) effect) ∧
      ((discipline services genesis).Rely (fun _ => False) s'
          (s'.record (s'.entry call tx.startedAt tx.reads tx.answers l.replies none
            (tx.pending s'.db))) →
        Wp (discipline services genesis) call next Q (.outside l.replies)
          (s'.record (s'.entry call tx.startedAt tx.reads tx.answers l.replies none
            (tx.pending s'.db))))) :
    Wp (discipline services genesis) call (.commit next) Q l s := by
  refine Wp.commit hTx safe fun s' hRely _ => ?_
  obtain ⟨⟨effect, hCommitting⟩, hNext⟩ := h s' hRely
  exact hCommitting.commits hRely.inv hNext

end Rules

end Pixaeron.Auth
