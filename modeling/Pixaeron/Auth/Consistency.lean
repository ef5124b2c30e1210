import Pixaeron.Auth.Evolution

/-! # The invariant of the rows

Every session has exactly one refresh token that has not been consumed, and the session stores
its credential hash. That spans two tables, so it is stated together with what it rests on: the
refresh tokens belong to sessions, and identifiers are remembered.
-/

namespace Pixaeron.Auth

open Transactions

/-- `t` is the one unconsumed token of the session, and `hash` its credential hash. -/
structure IsCurrent (db : Database) (id hash : String) (t : SessionRefreshToken) : Prop where
  stored : db.tokens.get t.id = some t
  sessionId : t.sessionId = id
  unconsumed : t.consumedAt = none
  credentialHash : t.credentialHash = hash
  only : ∀ key t', db.tokens.get key = some t' → t'.sessionId = id → t'.consumedAt = none → t' = t

structure Consistent (db : Database) : Prop where
  sessionIssued : ∀ id s, db.sessions.get id = some s → id ∈ db.issuedSessions
  tokenIssued : ∀ id t, db.tokens.get id = some t → id ∈ db.issuedTokens
  owner : ∀ id t, db.tokens.get id = some t → ∃ s, db.sessions.get t.sessionId = some s
  current : ∀ id s, db.sessions.get id = some s → ∃ t, IsCurrent db id s.refreshTokenHash t
  signIn : ∀ id hash, (id, hash) ∈ db.signIns → id ∈ db.issuedSessions
  unrevoked : ∀ id s, db.sessions.get id = some s → s.revokedAt = none → s.revokedReason = none

theorem get_of_rows_nil {κ ρ : Type} [DecidableEq κ] {key : ρ → κ} {t : Table key}
    (h : t.rows = []) (k : κ) :
    t.get k = none := by
  simp [Table.get, h]

theorem Database.Fresh.consistent {db : Database} (h : db.Fresh) : Consistent db where
  sessionIssued id s hGet := by simp [get_of_rows_nil h.sessions] at hGet
  tokenIssued id t hGet := by simp [get_of_rows_nil h.tokens] at hGet
  owner id t hGet := by simp [get_of_rows_nil h.tokens] at hGet
  current id s hGet := by simp [get_of_rows_nil h.sessions] at hGet
  signIn id hash hMem := by simp [h.signIns] at hMem
  unrevoked id s hGet := by simp [get_of_rows_nil h.sessions] at hGet

variable {services : Services} {e : LogEntry} {effect : Effect} {db : Database}

theorem Consistent.of_session {id : String} {s : Session} (h : Consistent db)
    (hGet : db.sessions.get id = some s) {db' : Database} (hTokens : db'.tokens = db.tokens)
    {s' : Session} (hHash : s'.refreshTokenHash = s.refreshTokenHash) :
    ∃ t, IsCurrent db' id s'.refreshTokenHash t := by
  obtain ⟨t, hCurrent⟩ := h.current id s hGet
  refine ⟨t, ?_, hCurrent.sessionId, hCurrent.unconsumed, ?_, ?_⟩
  · rw [hTokens]
    exact hCurrent.stored
  · rw [hHash]
    exact hCurrent.credentialHash
  · rw [hTokens]
    exact hCurrent.only

theorem current_start (h : Consistent db) {session : Session} {token : SessionRefreshToken}
    {verified : Option String} (hFresh : session.id ∉ db.issuedSessions)
    (hToken : token.id ∉ db.issuedTokens) (hOwner : token.sessionId = session.id)
    (hHash : token.credentialHash = session.refreshTokenHash) (hOpen : token.consumedAt = none)
    (id : String) (s : Session)
    (hGet : ((Effect.start session token verified).apply db).sessions.get id = some s) :
    ∃ t, IsCurrent ((Effect.start session token verified).apply db) id s.refreshTokenHash t := by
  have hNone : db.tokens.get token.id = none := by
    cases hFound : db.tokens.get token.id with
    | none => rfl
    | some t => exact absurd (h.tokenIssued _ _ hFound) hToken
  have hTokens (k : String) := Effect.get_token_apply (.start session token verified) db k
  have hSessions := Effect.get_session_apply (.start session token verified) db id
  dsimp only at hTokens hSessions
  rw [hSessions] at hGet
  rcases Option.or_eq_some_iff.mp hGet with hOld | ⟨_, hNew⟩
  · obtain ⟨t, hCurrent⟩ := h.current id s hOld
    refine ⟨t, ?_, hCurrent.sessionId, hCurrent.unconsumed, hCurrent.credentialHash, ?_⟩
    · rw [hTokens, hCurrent.stored, Option.some_or]
    · intro k t' hGet' hId hOpen'
      rw [hTokens] at hGet'
      rcases Option.or_eq_some_iff.mp hGet' with hOld' | ⟨_, hNew'⟩
      · exact hCurrent.only k t' hOld' hId hOpen'
      · split at hNew' <;> cases hNew'
        have hSame : session.id = id := hOwner.symm.trans hId
        exact absurd (hSame ▸ h.sessionIssued id s hOld) hFresh
  · split at hNew <;> cases hNew
    next hId =>
    refine ⟨token, ?_, hOwner.trans hId, hOpen, hHash, ?_⟩
    · rw [hTokens, hNone, Option.none_or, if_pos rfl]
    · intro k t' hGet' hId' hOpen'
      rw [hTokens] at hGet'
      rcases Option.or_eq_some_iff.mp hGet' with hOld' | ⟨_, hNew'⟩
      · obtain ⟨s', hSession⟩ := h.owner k t' hOld'
        have hIssued := h.sessionIssued _ _ hSession
        rw [hId', ← hId] at hIssued
        exact absurd hIssued hFresh
      · split at hNew' <;> cases hNew'
        rfl

/-- A rotation replaces the one unconsumed token of its session and leaves those of the others. -/
theorem current_rotate (h : Consistent e.before) {sessionId tokenId : String}
    {next : SessionRefreshToken} {now : Nat} {metadata : SessionRequestMetadata}
    (hRotates : Rotates services e sessionId tokenId next now metadata) (id : String) (s' : Session)
    (hGet : ((Effect.rotate sessionId tokenId next now metadata).apply e.before).sessions.get id =
      some s') :
    ∃ t, IsCurrent ((Effect.rotate sessionId tokenId next now metadata).apply e.before) id
      s'.refreshTokenHash t := by
  obtain ⟨_, drawn, _, _, _, _, _, hNext⟩ := hRotates.call
  obtain ⟨_, used, hSession, hUsed, hOwner, _, hUnused, _⟩ := hRotates.rows
  have hNextSession : next.sessionId = sessionId := by rw [hNext]
  have hNextOpen : next.consumedAt = none := by rw [hNext]
  have hNone : e.before.tokens.get next.id = none := by
    cases hFound : e.before.tokens.get next.id with
    | none => rfl
    | some t => exact absurd (h.tokenIssued _ _ hFound) hRotates.fresh
  have hTokens (k : String) :=
    Effect.get_token_apply (.rotate sessionId tokenId next now metadata) e.before k
  have hSessions :=
    Effect.get_session_apply (.rotate sessionId tokenId next now metadata) e.before id
  dsimp only at hTokens hSessions
  rw [hSessions] at hGet
  obtain ⟨s, hGet, hEq⟩ := Option.map_eq_some_iff.mp hGet
  obtain ⟨t, hCurrent⟩ := h.current id s hGet
  split at hEq
  · next hId =>
    subst hId hEq
    have hSame : used = t := hCurrent.only _ _ hUsed hOwner hUnused
    refine ⟨next, ?_, hNextSession, hNextOpen, rfl, ?_⟩
    · rw [hTokens, hNone, Option.map_none, Option.none_or, if_pos rfl]
    · intro k t' hGet' hId' hOpen'
      rw [hTokens] at hGet'
      rcases Option.or_eq_some_iff.mp hGet' with hOld' | ⟨_, hNew'⟩
      · obtain ⟨t₀, hGet₀, hEq₀⟩ := Option.map_eq_some_iff.mp hOld'
        split at hEq₀
        · subst hEq₀
          cases hOpen'
        · next hOther =>
          subst hEq₀
          have hAgain : t₀ = t := hCurrent.only _ _ hGet₀ hId' hOpen'
          have hKey : t₀.id = k := Table.key_of_get hGet₀
          have hKey' : used.id = tokenId := Table.key_of_get hUsed
          exact absurd (hKey.symm.trans ((congrArg _ (hAgain.trans hSame.symm)).trans hKey')) hOther
      · split at hNew' <;> cases hNew'
        rfl
  · next hId =>
    subst hEq
    have hOther : t.id ≠ tokenId := by
      intro hSame
      have hStored := hCurrent.stored
      rw [hSame, hUsed, Option.some.injEq] at hStored
      exact hId (hCurrent.sessionId.symm.trans (hStored ▸ hOwner))
    refine ⟨t, ?_, hCurrent.sessionId, hCurrent.unconsumed, hCurrent.credentialHash, ?_⟩
    · rw [hTokens, hCurrent.stored, Option.map_some, if_neg hOther, Option.some_or]
    · intro k t' hGet' hId' hOpen'
      rw [hTokens] at hGet'
      rcases Option.or_eq_some_iff.mp hGet' with hOld' | ⟨_, hNew'⟩
      · obtain ⟨t₀, hGet₀, hEq₀⟩ := Option.map_eq_some_iff.mp hOld'
        split at hEq₀
        · subst hEq₀
          cases hOpen'
        · subst hEq₀
          exact hCurrent.only _ _ hGet₀ hId' hOpen'
      · split at hNew' <;> cases hNew'
        exact absurd (hId'.symm.trans hNextSession) hId

theorem current_drop (h : Consistent db) {ids : List String} (id : String) (s : Session)
    (hGet : ((Effect.dropSessions ids).apply db).sessions.get id = some s) :
    ∃ t, IsCurrent ((Effect.dropSessions ids).apply db) id s.refreshTokenHash t := by
  have hTokens (k : String) := Effect.get_token_apply (.dropSessions ids) db k
  have hSessions := Effect.get_session_apply (.dropSessions ids) db id
  dsimp only at hTokens hSessions
  rw [hSessions] at hGet
  obtain ⟨hOld, hStays⟩ := Option.filter_eq_some_iff.mp hGet
  obtain ⟨t, hCurrent⟩ := h.current id s hOld
  have hId : s.id = id := Table.key_of_get hOld
  refine ⟨t, ?_, hCurrent.sessionId, hCurrent.unconsumed, hCurrent.credentialHash, ?_⟩
  · rw [hTokens, hCurrent.stored]
    refine Option.filter_eq_some_iff.mpr ⟨rfl, ?_⟩
    rw [hCurrent.sessionId, ← hId]
    exact hStays
  · intro k t' hGet' hId' hOpen'
    rw [hTokens] at hGet'
    exact hCurrent.only k t' (Option.filter_eq_some_iff.mp hGet').1 hId' hOpen'

theorem Consistent.current_step (h : Consistent e.before) (hAllowed : effect.Allowed services e)
    (id : String) (s : Session) (hGet : (effect.apply e.before).sessions.get id = some s) :
    ∃ t, IsCurrent (effect.apply e.before) id s.refreshTokenHash t := by
  cases effect with
  | start session token verified =>
    obtain ⟨hFresh, _, hToken, hOwner, hHash, hOpen, _⟩ := hAllowed
    exact current_start h hFresh hToken hOwner hHash hOpen id s hGet
  | rotate sessionId tokenId next now metadata => exact current_rotate h hAllowed id s hGet
  | dropSessions ids => exact current_drop h id s hGet
  | revoke ids revokedAt reason =>
    have hSessions := Effect.get_session_apply (.revoke ids revokedAt reason) e.before id
    dsimp only at hSessions
    obtain ⟨s₀, hOld, hEq⟩ := Option.map_eq_some_iff.mp (hSessions.symm.trans hGet)
    refine h.of_session hOld (by rfl) ?_
    subst hEq
    split <;> rfl
  | reset authTokens userId passwordHash ids now =>
    have hSessions :=
      Effect.get_session_apply (.reset authTokens userId passwordHash ids now) e.before id
    dsimp only at hSessions
    obtain ⟨s₀, hOld, hEq⟩ := Option.map_eq_some_iff.mp (hSessions.symm.trans hGet)
    refine h.of_session hOld (by rfl) ?_
    subst hEq
    split <;> rfl
  | nothing => exact h.of_session (s := s) hGet rfl rfl
  | issue older now token => exact h.of_session (s := s) hGet (by rfl) rfl
  | dropAuthTokens ids => exact h.of_session (s := s) hGet (by rfl) rfl

/-- Sessions of existing tokens stay, unless the tokens go with them. -/
theorem Consistent.owner_step (h : Consistent e.before) (hAllowed : effect.Allowed services e)
    (id : String) (t' : SessionRefreshToken)
    (hGet : (effect.apply e.before).tokens.get id = some t') :
    ∃ s, (effect.apply e.before).sessions.get t'.sessionId = some s := by
  have hKept (k : String) (s : Session) (hOld : e.before.sessions.get k = some s)
      (hDrop : ∀ ids, effect = .dropSessions ids → k ∉ ids) : ∃ s',
        (effect.apply e.before).sessions.get k = some s' := by
    rw [Effect.get_session_apply]
    cases effect with
    | dropSessions ids =>
      refine ⟨s, Option.filter_eq_some_iff.mpr ⟨hOld, ?_⟩⟩
      rw [Table.key_of_get hOld]
      simpa using hDrop ids rfl
    | _ => simp [hOld]
  rcases effect.token_origin hAllowed hGet with ⟨_, _,
    ⟨session, verified, rfl⟩ | ⟨sessionId, tokenId, now, metadata, rfl⟩⟩ | ⟨t, hOld, hStep⟩
  · rw [Effect.get_session_apply, hAllowed.2.2.2.1]
    cases hFound : e.before.sessions.get session.id <;> simp
  · obtain ⟨_, drawn, _, _, _, _, _, hNext⟩ := hAllowed.call
    obtain ⟨s, _, hSession, _⟩ := hAllowed.rows
    have hId : t'.sessionId = sessionId := by rw [hNext]
    rw [hId]
    exact hKept sessionId s hSession fun ids hEq => by cases hEq
  · obtain ⟨s, hSession⟩ := h.owner id t hOld
    rw [hStep.sessionId]
    refine hKept _ s hSession fun ids hEq hMem => ?_
    subst hEq
    rw [Effect.get_token_apply] at hGet
    have hStays := (Option.filter_eq_some_iff.mp hGet).2
    rw [hStep.sessionId] at hStays
    simp [hMem] at hStays

theorem Consistent.step (h : Consistent e.before)
    (hLegal : Legal services e) : Consistent e.after := by
  have hLater := hLegal.later
  obtain ⟨effect, hAllowed, hAfter⟩ := hLegal
  rw [hAfter] at hLater ⊢
  constructor
  · intro id s' hGet
    rcases effect.session_origin hAllowed hGet with ⟨token, verified, rfl, rfl, _⟩ | ⟨s, hOld, _⟩
    · exact List.mem_cons_self
    · exact hLater.issuedSessions id (h.sessionIssued id s hOld)
  · intro id t' hGet
    rcases effect.token_origin hAllowed hGet with ⟨_, rfl, ⟨_, _, rfl⟩ | ⟨_, _, _, _, rfl⟩⟩ |
      ⟨t, hOld, _⟩
    · exact List.mem_cons_self
    · exact List.mem_cons_self
    · exact hLater.issuedTokens id (h.tokenIssued id t hOld)
  · exact h.owner_step hAllowed
  · exact h.current_step hAllowed
  · intro id hash hMem
    rw [Effect.signIns_apply] at hMem
    cases effect with
    | start session token verified =>
      rcases List.mem_append.mp hMem with hNew | hOld
      · obtain ⟨_, _, hEq⟩ := Option.map_eq_some_iff.mp (Option.mem_toList.mp hNew)
        cases hEq
        exact List.mem_cons_self
      · exact hLater.issuedSessions id (h.signIn id hash hOld)
    | _ => exact hLater.issuedSessions id (h.signIn id hash hMem)
  · intro id s' hGet hOpen
    rcases effect.session_origin hAllowed hGet with ⟨token, verified, rfl, rfl, _⟩ |
      ⟨s, hOld, hStep⟩
    · obtain ⟨_, _, _, _, _, _, _, hReason, _⟩ := hAllowed
      exact hReason
    · exact (hStep.reason hOpen).trans (h.unrevoked id s hOld (hStep.revoked hOpen))

end Pixaeron.Auth
