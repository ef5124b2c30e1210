import Pixaeron.Auth.SessionService

/-! # Password sign-in, password recovery and clean-up -/

namespace Pixaeron.Auth

open Transactions Transactions.Script

/-- The password is compared before the session is created, outside any transaction. -/
def login (services : Services) (email password : String) (metadata : SessionRequestMetadata)
    (drawn : DrawnSession) (rememberMe : Bool) : Script auth (Except Failure SignedIn) := do
  let user ← query .findUserByEmail fun v => v.db.userByEmail (services.normalizeEmail email)
  match user with
  | none => refuse .unauthorized
  | some user =>
    match user.password with
    | none => refuse .unauthorized
    | some passwordHash =>
      if services.verifyPassword password (some passwordHash) = true then
        if user.emailVerified then
          match ← createSession services user.id metadata drawn rememberMe (some passwordHash) with
          | .error .sessionCredentialChanged => refuse .unauthorized
          | result => pure result
        else refuse .emailNotVerified
      else refuse .unauthorized

inductive PasswordResetStatus where
  | reset
  | invalid
  | alreadyUsed
  | expired
deriving DecidableEq

/-- The token if it may be used, and why it may not otherwise. -/
def classifyResetToken (authToken : Option AuthToken) (now : Nat) :
    Except PasswordResetStatus AuthToken :=
  match authToken with
  | none => .error .invalid
  | some authToken =>
    if authToken.consumedAt.isSome then .error .alreadyUsed
    else if authToken.expiresAt ≤ now then .error .expired
    else .ok authToken

def findAuthToken (services : Services) (token : String) (type : AuthTokenType) :
    Script auth (Option AuthToken) :=
  query .findAuthToken fun v => v.db.authTokens.rows.find? fun t =>
    t.tokenHash = services.digest token ∧ t.type = type

/-- `authToken.updateMany` that consumes the one-time tokens that match. -/
def consumeAuthTokens (name : Statement) (where_ : AuthToken → Bool)
    (now : Nat) : Script auth Nat :=
  change name (fun v => (v.db.authTokens.select where_).map fun t => .authToken t.id)
    (fun v db => db.consumeAuthTokens ((v.db.authTokens.select where_).map AuthToken.id) now)
    fun v => (v.db.authTokens.select where_).length

/-- `user.update` that sets the password. -/
def setPassword (userId : Nat) (passwordHash : String) : Script auth Unit := do
  let found ← change .setPassword (fun v =>
    if (v.db.users.get userId).isSome then [.user userId] else [])
    (fun _ db => db.setPassword userId passwordHash) fun v => (v.db.users.get userId).isSome
  require (found = true) (.recordNotFound "User")

/-- `passwordHash` is the salted hash of `password` that the call draws. -/
def resetPassword (services : Services) (token passwordHash : String) :
    Script auth (Except Failure PasswordResetStatus) := do
  let authToken ← findAuthToken services token .passwordReset
  let calledAt ← readClock
  match classifyResetToken authToken calledAt with
  | .error rejection => pure (.ok rejection)
  | .ok _ =>
    let body : Script auth (Except Failure PasswordResetStatus) := do
      let now ← readClock
      let found ← findAuthToken services token .passwordReset
      match classifyResetToken found now with
      | .error rejection => pure (.ok rejection)
      | .ok current =>
        let consumed ← consumeAuthTokens .consumeAuthToken
          (fun t => t.id = current.id ∧ t.consumedAt = none ∧ now < t.expiresAt) now
        if consumed ≠ 1 then pure (.ok .alreadyUsed)
        else
          setPassword current.userId passwordHash
          let _ ← revokeSessions .revokeOldSessions
            (fun s => s.userId = current.userId ∧ s.revokedAt = none) now
            .passwordChanged
          pure (.ok .reset)
    transaction transactionTimeoutMs body refuse

def tokenTtlMs : AuthTokenType → Nat
  | .emailVerification => 86400000
  | .passwordReset => 900000

/-- What a one-time token is created with: the text that is mailed and the identifier of its row. -/
structure DrawnAuthToken where
  id : String
  token : String
deriving DecidableEq

/-- The partial unique index of `auth_tokens` over the unconsumed rows. -/
def oneActivePerUserType : String := "auth_tokens_one_active_per_user_type"

def AuthToken.activeFor (userId : Nat) (type : AuthTokenType) (t : AuthToken) : Bool :=
  t.userId = userId ∧ t.type = type ∧ t.consumedAt = none

/-- What a new row of `auth_tokens` violates. -/
def Database.authTokenClash (db : Database) (new : AuthToken) : Option String :=
  if (db.issuedAuthTokens.any fun p => p.1 = new.id ∨ p.2 = new.tokenHash) ∨
      (db.authTokens.rows.any fun t => t.id = new.id ∨ t.tokenHash = new.tokenHash) then
        some "AuthToken"
  else if db.authTokens.rows.any (AuthToken.activeFor new.userId new.type) then
    some oneActivePerUserType
  else none

/-- `authToken.create`. Two inserts of one entry of an index wait for each other. -/
def createAuthToken (new : AuthToken) : Script auth Unit := do
  let clash ← change .insertAuthToken
    (fun _ => [.authToken new.id, .authTokenHash new.tokenHash,
      .activeAuthToken new.userId new.type])
    (fun v db => if v.db.authTokenClash new = none then db.insertAuthToken new else db) fun v =>
      v.db.authTokenClash new
  match clash with
  | none => pure ()
  | some index => fail (.uniqueConstraint index)

def issueInTransaction (services : Services) (userId : Nat) (type : AuthTokenType)
    (drawn : DrawnAuthToken) :
    Script auth String := do
  let now ← readClock
  lockRows .lockTokenIssue (fun _ => [.tokenIssue userId type]) fun _ => ()
  let _ ← consumeAuthTokens .consumeOlderTokens (AuthToken.activeFor userId type) now
  createAuthToken ⟨drawn.id, userId, type, services.digest drawn.token, now + tokenTtlMs type, none⟩
  pure drawn.token

def requestPasswordReset (services : Services) (email : String) (drawn : DrawnAuthToken) :
    Script auth (Except Failure Unit) := do
  let user ← query .findUserByEmail fun v => v.db.userByEmail (services.normalizeEmail email)
  match user with
  | some user =>
    if user.password.isSome then
      let issued ← transaction transactionTimeoutMs
        (do pure (.ok (← issueInTransaction services user.id .passwordReset drawn))) refuse
      pure (issued.map fun _ => ())
    else pure (.ok ())
  | none => pure (.ok ())

def dayMs : Nat := 86400000

def passedBefore (time : Option Nat) (cutoff : Nat) : Bool := time.any fun t => t < cutoff

def deleteExpiredData : Script auth (Except Failure Unit) := do
  let now ← readClock
  let authTokenCutoff := now - 7 * dayMs
  let sessionCutoff := now - 30 * dayMs
  let oldToken : AuthToken → Bool := fun t =>
    t.expiresAt < authTokenCutoff ∨ passedBefore t.consumedAt authTokenCutoff
  let oldSession : Session → Bool := fun s =>
    s.expiresAt < sessionCutoff ∨ passedBefore s.revokedAt sessionCutoff
  change .deleteAuthTokens (fun v => (v.db.authTokens.select oldToken).map fun t => .authToken t.id)
    (fun v db => db.deleteAuthTokens
      fun t => t.id ∈ (v.db.authTokens.select oldToken).map AuthToken.id) fun _ => ()
  change .deleteSessions
    (fun v => ((v.db.sessions.select oldSession).map fun s => .session s.id) ++
      (v.db.tokens.select fun t => t.sessionId ∈
        (v.db.sessions.select oldSession).map Session.id).map fun t => .token t.id)
    (fun v db => db.deleteSessions ((v.db.sessions.select oldSession).map Session.id)) fun _ => ()
  pure (.ok ())

end Pixaeron.Auth
