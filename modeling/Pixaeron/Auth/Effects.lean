import Pixaeron.Transactions.Ledger
import Pixaeron.Auth.System

/-! # What a transaction of the auth system does

Every entry of the history has one of these effects, under the conditions of `Allowed`.
-/

namespace Pixaeron.Auth

open Transactions

abbrev LogEntry := Entry auth Call

inductive Effect where
  | nothing
  | start (session : Session) (token : SessionRefreshToken) (verified : Option String)
  | rotate (sessionId tokenId : String) (next : SessionRefreshToken) (now : Nat)
      (metadata : SessionRequestMetadata)
  | revoke (ids : List String) (revokedAt : Nat) (reason : SessionRevokedReason)
  | reset (authTokens : List String) (userId : Nat) (passwordHash : String)
      (ids : List String) (now : Nat)
  | issue (older : List String) (now : Nat) (token : AuthToken)
  | dropAuthTokens (ids : List String)
  | dropSessions (ids : List String)

namespace Effect

def apply : Effect → Database → Database
  | nothing, db => db
  | start session token verified, db => (db.insertSession session verified).insertToken token
  | rotate sessionId tokenId next now metadata, db =>
    ((db.rotateSessions [sessionId] next.credentialHash now metadata).consumeTokens
      [tokenId] now).insertToken next
  | revoke ids revokedAt reason, db => db.revokeSessions ids revokedAt reason
  | reset authTokens userId passwordHash ids now, db =>
    ((db.consumeAuthTokens authTokens now).setPassword userId passwordHash).revokeSessions ids now
      .passwordChanged
  | issue older now token, db => (db.consumeAuthTokens older now).insertAuthToken token
  | dropAuthTokens ids, db => db.deleteAuthTokens fun t => t.id ∈ ids
  | dropSessions ids, db => db.deleteSessions ids

/-- The rows whose locks the effect needs. A password sign-in needs the lock of its user, too. -/
def Touches (db : Database) : Effect → Resource → Prop
  | rotate sessionId tokenId next _ _, r =>
    r = .session sessionId ∨ r = .token tokenId ∨ r = .token next.id
  | revoke ids _ _, r => ∃ id ∈ ids, (db.sessions.get id).isSome ∧ r = .session id
  | reset authTokens userId _ ids _, r =>
    (∃ id ∈ authTokens, r = .authToken id) ∨ r = .user userId ∨ ∃ id ∈ ids, r = .session id
  | issue older _ _, r => ∃ id ∈ older, r = .authToken id
  | dropAuthTokens ids, r => ∃ id ∈ ids, r = .authToken id
  | dropSessions ids, r =>
    (∃ id ∈ ids, r = .session id) ∨ ∃ t ∈ db.tokens.rows, t.sessionId ∈ ids ∧ r = .token t.id
  | start session token verified, r =>
    r = .session session.id ∨ r = .token token.id ∨ verified ≠ none ∧ r = .user session.userId
  | nothing, _ => False

end Effect

def Call.startsSession : Call → Prop
  | .createSession .. | .login .. => True
  | _ => False

/-- A rotation exchanges the token that the session stores, as long as the session is alive; the
conditional update of its transaction has seen that, too. -/
structure Rotates (services : Services) (e : LogEntry) (sessionId tokenId : String)
    (next : SessionRefreshToken) (now : Nat) (metadata : SessionRequestMetadata) : Prop where
  call : ∃ cookie drawn parsed, e.call = .refreshSession now cookie metadata drawn ∧
    parseRefreshToken cookie = some parsed ∧ parsed.sessionId = sessionId ∧
      parsed.tokenId = tokenId ∧
    next = ⟨drawn.tokenId, sessionId, drawn.hash, none⟩
  fresh : next.id ∉ e.before.issuedTokens
  rows : ∃ s t, e.before.sessions.get sessionId = some s ∧ e.before.tokens.get tokenId = some t ∧
    t.sessionId = sessionId ∧ t.credentialHash = s.refreshTokenHash ∧ t.consumedAt = none ∧
    s.revokedAt = none ∧ now < s.expiresAt ∧
    ∃ db, e.saw .rotateSession = some db ∧ db.sessions.get sessionId = some s

/-- Which calls revoke sessions for which reason. A session that is revoked already is touched by
a logout and by the marking of an expired session only. -/
structure Revokes (e : LogEntry) (ids : List String) (revokedAt : Nat)
    (reason : SessionRevokedReason) : Prop where
  unrevoked : reason ≠ .logout → reason ≠ .expired → ∀ id ∈ ids, ∀ s,
    e.before.sessions.get id = some s → s.revokedAt = none
  refresh : reason = .expired ∨ reason = .refreshReuse → ∃ cookie metadata drawn parsed,
    e.call = .refreshSession revokedAt cookie metadata drawn ∧
      parseRefreshToken cookie = some parsed ∧
    ∀ id ∈ ids, id = parsed.sessionId
  expired : reason = .expired → ∀ id ∈ ids, ∀ s, e.before.sessions.get id = some s →
    s.expiresAt ≤ revokedAt
  logout : reason = .logout → ∃ cookie parsed,
    e.call = .logout cookie ∧ parseRefreshToken cookie = some parsed ∧
    ids = [parsed.sessionId]
  known : reason = .expired ∨ reason = .logout ∨ reason = .refreshReuse ∨
    reason = .logoutAll ∧ ∃ userId, e.call = .logoutAll userId
  update : reason = .expired ∨ reason = .logout →
    ∃ name, (name = .markExpired ∨ name = .revokeLoggedOut) ∧ e.saw name = some e.before

/-- A reset revokes the sessions that were there and not revoked when it looked; since it has the
lock of the user's row, no sign-in has added one with a password. -/
structure Resets (e : LogEntry) (userId : Nat) (passwordHash : String)
    (ids : List String) : Prop where
  call : ∃ token, e.call = .resetPassword token passwordHash
  user : ∃ u, e.before.users.get userId = some u
  revoked : ∀ s ∈ e.before.sessions.rows, s.userId = userId → s.revokedAt = none →
    s.id ∈ ids ∨ ∀ hash, (s.id, hash) ∉ e.before.signIns
  unrevoked : ∀ id ∈ ids, ∀ s, e.before.sessions.get id = some s →
    s.revokedAt = none ∧ s.userId = userId
  began : ∃ name db, e.reads.head? = some (name, db) ∧ ∀ s ∈ db.sessions.rows, s.userId = userId →
    ∀ s', e.before.sessions.get s.id = some s' → s'.revokedAt = none → s.id ∈ ids

/-- The transaction of a reset that has gone through. -/
def HasReset (e : LogEntry) (userId : Nat) (passwordHash : String) : Prop :=
  ∃ authTokens ids now, Resets e userId passwordHash ids ∧
    e.after = (Effect.reset authTokens userId passwordHash ids now).apply e.before

def Effect.Allowed (services : Services) (e : LogEntry) : Effect → Prop
  | .nothing => True
  | .start session token verified =>
    session.id ∉ e.before.issuedSessions ∧ e.call.startsSession ∧ token.id ∉ e.before.issuedTokens ∧
    token.sessionId = session.id ∧ token.credentialHash = session.refreshTokenHash ∧
      token.consumedAt = none ∧
    session.revokedAt = none ∧ session.revokedReason = none ∧
    ∀ hash, verified = some hash → ∃ u, e.before.users.get session.userId = some u ∧
      u.password = some hash
  | .rotate sessionId tokenId next now metadata =>
    Rotates services e sessionId tokenId next now metadata
  | .revoke ids revokedAt reason => Revokes e ids revokedAt reason
  | .reset _ userId passwordHash ids _ => Resets e userId passwordHash ids
  | .issue .. => True
  | .dropAuthTokens _ => True
  | .dropSessions _ => True

def Legal (services : Services) (e : LogEntry) : Prop :=
  ∃ effect : Effect, effect.Allowed services e ∧ e.after = effect.apply e.before

end Pixaeron.Auth
