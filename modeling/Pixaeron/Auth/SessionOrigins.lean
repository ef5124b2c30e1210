import Pixaeron.Auth.Runs
import Pixaeron.Auth.Verified.Origins

/-! # Where sessions come from

Every session has been started by a sign-in of its user, and its credential is exchanged by its
holder. -/

namespace Pixaeron.Auth.Origins

open Transactions

section Runs

variable {services : Services} {genesis : Genesis} {now : Nat} {w : World auth Call Outcome}
  {past later : List LogEntry} {e : LogEntry}

theorem told_of_run (hLeads : World.Leads (system services) (start now genesis) w) :
    (grounds services).Told genesis.rows w.shared := grounded_system.told hLeads

/-- This entry has put in a session of the user, and its call may start sessions of that user. -/
structure StartedBy (services : Services) (genesis : Genesis) (past : List LogEntry) (e : LogEntry)
    (id : String) (userId : Nat) : Prop where
  absent : e.before.sessions.get id = none
  present : ∃ s, e.after.sessions.get id = some s ∧ s.userId = userId
  mayStart : MayStart services e.call (Occurred genesis.rows past) userId

/-- The sessions of these rows have been started by entries of this history. -/
def AllStarted (services : Services) (genesis : Genesis) (past : List LogEntry)
    (db : Database) : Prop :=
  ∀ id s, db.sessions.get id = some s → ∃ before e after,
    past = before ++ e :: after ∧ StartedBy services genesis before e id s.userId

theorem AllStarted.step (h : AllStarted services genesis past e.before) (hSane : Sane services e)
    (hJustified : Justified (grounds services) genesis.rows past e) :
    AllStarted services genesis (past ++ [e]) e.after := by
  intro id s' hGet
  have hPresent : ∃ s, e.after.sessions.get id = some s ∧ s.userId = s'.userId := ⟨s', hGet, rfl⟩
  cases hBefore : e.before.sessions.get id with
  | some s =>
    -- the session was there, and has not changed hands
    obtain ⟨old, hOld, hStep⟩ :=
      hSane.1.later.session id (hSane.2.sessionIssued id s hBefore) s' hGet
    obtain ⟨before, e', after, rfl, hStarted⟩ := h id old hOld
    exact ⟨before, e', after ++ [e], by simp, hStep.userId ▸ hStarted⟩
  | none =>
    rcases hJustified with ⟨_, hSame⟩ | ⟨_, known, p, hFair, _, _, hAfter, hKnown⟩
    · rw [hSame] at hGet
      cases hBefore.symm.trans hGet
    rw [hAfter] at hGet
    rcases hFair e.before id s' hGet with ⟨s, hOld, _⟩ | hStart
    · cases hBefore.symm.trans hOld
    · exact ⟨past, e, [], rfl, hBefore, hPresent, hStart.mono hKnown⟩

/-- Every session has been started by a call that was trusted to start one of its user, or by a
password sign-in that had found a verified user with the given address and compared the given
password with the stored hash of that user. -/
theorem session_started (hLeads : World.Leads (system services) (start now genesis) w) :
    ∀ id s, w.shared.db.sessions.get id = some s → ∃ past e later,
      w.shared.history = past ++ e :: later ∧
      StartedBy services genesis past e id s.userId := by
  have hTold := told_of_run hLeads
  suffices hAll : ([] ++ w.shared.history) <+: w.shared.history →
    AllStarted services genesis ([] ++ w.shared.history) w.shared.db from
    hAll List.prefix_rfl
  refine (system_path hLeads).recorded (P := fun past db _ =>
    past <+: w.shared.history → AllStarted services genesis past db)
    (fun _ _ _ _ _ h => h) ?_ ?_
  · rintro past e _ hSane hSoFar ⟨rest, hRest⟩
    rw [← List.append_cons] at hRest
    exact (hSoFar ⟨e :: rest, hRest⟩).step hSane (hTold past e rest hRest.symm)
  · intro _ id s hGet
    rw [get_of_rows_nil genesis.fresh.sessions] at hGet
    cases hGet

theorem rotates_of_hash {id : String} {s s' : Session} (hLegal : Legal services e)
    (hGet : e.before.sessions.get id = some s) (hGet' : e.after.sessions.get id = some s')
    (hHash : s'.refreshTokenHash ≠ s.refreshTokenHash) :
    ∃ tokenId next time metadata, Rotates services e id tokenId next time metadata := by
  obtain ⟨effect, hAllowed, hAfter⟩ := hLegal
  rw [hAfter, Effect.get_session_apply] at hGet'
  cases effect with
  | rotate sessionId tokenId next time metadata =>
    by_cases hId : id = sessionId
    · exact ⟨tokenId, next, time, metadata, hId ▸ hAllowed⟩
    · simp only [hGet, Option.map_some, if_neg hId, Option.some.injEq] at hGet'
      exact absurd (congrArg Session.refreshTokenHash hGet'.symm) hHash
  | start session token verified =>
    simp only [hGet, Option.some_or, Option.some.injEq] at hGet'
    exact absurd (congrArg Session.refreshTokenHash hGet'.symm) hHash
  | revoke ids revokedAt reason =>
    simp only [hGet, Option.map_some, Option.some.injEq] at hGet'
    refine absurd ?_ hHash
    rw [← hGet']
    split <;> rfl
  | reset authTokens userId passwordHash ids time =>
    simp only [hGet, Option.map_some, Option.some.injEq] at hGet'
    refine absurd ?_ hHash
    rw [← hGet']
    split <;> rfl
  | dropSessions ids =>
    cases hGet.symm.trans (Option.filter_eq_some_iff.mp hGet').1
    exact absurd rfl hHash
  | _ =>
    cases hGet.symm.trans hGet'
    exact absurd rfl hHash

theorem credentialHash_of_occurred {db₀ : Database} {time : Nat} {tokenId : String}
    {t t' : SessionRefreshToken} (hPath : Path (Sane services) genesis.rows 0 past e.before time)
    (hSeen : Occurred genesis.rows past db₀) (hGet : db₀.tokens.get tokenId = some t)
    (hGet' : e.before.tokens.get tokenId = some t') : t'.credentialHash = t.credentialHash := by
  obtain ⟨_, _, _, hEarlier, hSince⟩ := hSeen.path hPath
  have hConsistent : Consistent db₀ :=
    hEarlier.preserves (P := fun (db : Database) _ => Consistent db) (fun _ _ _ _ h => h)
    (fun _ _ hSane _ => hSane.2.step hSane.1) genesis.fresh.consistent
  have hLater := later_of_path (hSince.mono fun e' he' => (hSince.legal e' he').1)
  obtain ⟨old, hOld, hStep⟩ :=
    hLater.token tokenId (hConsistent.tokenIssued tokenId t hGet) t' hGet'
  cases hGet.symm.trans hOld
  exact hStep.credentialHash

/-- The refresh credential of a session is exchanged only by a refresh with the credential that the
session has, before it has expired or been revoked. -/
theorem rotated_by_holder (hLeads : World.Leads (system services) (start now genesis) w) :
    ∀ e ∈ w.shared.history, ∀ id s s', e.before.sessions.get id = some s →
      e.after.sessions.get id = some s' →
      s'.refreshTokenHash ≠ s.refreshTokenHash → ∃ time cookie metadata nextCredential parsed,
        e.call = .refreshSession time cookie metadata nextCredential ∧
        parseRefreshToken cookie = some parsed ∧ parsed.sessionId = id ∧
        services.verifyRefreshCredential parsed.refreshCredential s.refreshTokenHash = true ∧
        s.revokedAt = none ∧
        time < s.expiresAt ∧ s'.refreshTokenHash = nextCredential.hash := by
  intro e he id s s' hGet hGet' hHash
  obtain ⟨past, later, hSplit⟩ := List.append_of_mem he
  have hPath := system_path hLeads
  rw [hSplit] at hPath
  obtain ⟨⟨_, hFirst⟩, hSane, _⟩ := hPath.around
  obtain ⟨tokenId, next, time, metadata, hRotates⟩ := rotates_of_hash hSane.1 hGet hGet' hHash
  obtain ⟨cookie, drawn, parsed, hCall, hParsed, hSession, hToken, _⟩ := hRotates.call
  obtain ⟨row, t, hRow, hStored, _, hCurrent, _, hOpen, hAlive, _⟩ := hRotates.rows
  cases hGet.symm.trans hRow
  rcases told_of_run hLeads past e later hSplit with ⟨_, hSame⟩ |
    ⟨_, known, p, hFair, _, _, hAfter, hKnown⟩
  · rw [hSame] at hGet'
    cases hGet.symm.trans hGet'
    exact absurd rfl hHash
  rw [hAfter] at hGet'
  rcases hFair e.before id s' hGet' with ⟨old, hOld, _, hSame | hRotate⟩ | hStart
  · cases hGet.symm.trans hOld
    exact absurd hSame hHash
  · obtain ⟨time', cookie', metadata', drawn', parsed', db₀, t₀, hCall', hParsed', _, hDb, hToken',
      hVerified, hNew⟩ := hRotate.verified
    cases hCall.symm.trans hCall'
    cases hParsed.symm.trans hParsed'
    have hKept := credentialHash_of_occurred hFirst (hKnown db₀ hDb) hToken' (hToken ▸ hStored)
    refine ⟨time, cookie, _, drawn, parsed, hCall, hParsed, hSession, ?_, hOpen, hAlive, hNew⟩
    rwa [← hCurrent, hKept]
  · -- a refresh starts no session
    cases hStart with
    | trusted hOther => cases hCall.symm.trans hOther
    | password hOther _ _ _ _ _ _ => cases hCall.symm.trans hOther

end Runs

namespace Sample

open Auth.Sample

theorem session_started_signIn :
    ∃ w s past e later, World.Leads (system services) (start 0 genesis) w ∧
    w.shared.db.sessions.get "s" = some s ∧
    w.shared.history = past ++ e :: later ∧ StartedBy services genesis past e "s" s.userId := by
  have hRun : ((Auth.Sample.run signIn).bind fun w => w.shared.db.sessions.get "s").isSome =
    true := by decide
  obtain ⟨s, hS⟩ := Option.isSome_iff_exists.mp hRun
  obtain ⟨w, hW, hGet⟩ := Option.bind_eq_some_iff.mp hS
  have hLeads := World.leads_of_run hW
  obtain ⟨past, e, later, hSplit, hStarted⟩ := session_started hLeads "s" s hGet
  exact ⟨w, s, past, e, later, hLeads, hGet, hSplit, hStarted⟩

/-- The refresh exchanges the credential of the sign-in. -/
theorem rotated_by_holder_refresh :
    ∃ w e s parsed, World.Leads (system services) (start 0 genesis) w ∧ e ∈ w.shared.history ∧
    e.before.sessions.get "s" = some s ∧
    services.verifyRefreshCredential (ParsedRefreshToken.refreshCredential parsed)
      s.refreshTokenHash = true := by
  have hRun : ((Auth.Sample.run (signIn ++ refresh 1 0 "a" "b")).bind fun w =>
    w.shared.history.getLast?.map fun e =>
      ((e.before.sessions.get "s").map Session.refreshTokenHash,
        (e.after.sessions.get "s").map Session.refreshTokenHash)) =
      some (some "#a.x", some "#b.x") := by decide
  obtain ⟨w, hW, hLast⟩ := Option.bind_eq_some_iff.mp hRun
  obtain ⟨e, hE, hHashes⟩ := Option.map_eq_some_iff.mp hLast
  obtain ⟨hBefore, hAfter⟩ := Prod.mk.inj hHashes
  obtain ⟨s, hGet, hHash⟩ := Option.map_eq_some_iff.mp hBefore
  obtain ⟨s', hGet', hHash'⟩ := Option.map_eq_some_iff.mp hAfter
  have hLeads := World.leads_of_run hW
  have hMem := List.mem_of_getLast? hE
  have hChanged : s'.refreshTokenHash ≠ s.refreshTokenHash := by
    rw [hHash, hHash']
    decide
  obtain ⟨_, _, _, _, parsed, _, _, _, hVerified, _⟩ :=
    rotated_by_holder hLeads e hMem "s" s s' hGet hGet' hChanged
  exact ⟨w, e, s, parsed, hLeads, hMem, hGet, hVerified⟩

end Sample

end Pixaeron.Auth.Origins
