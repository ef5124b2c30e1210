import Pixaeron.Auth.Surroundings

/-! # Sessions

Session creation, refresh-token rotation with reuse detection, and logout.
-/

namespace Pixaeron.Auth

open Transactions Transactions.Script

/-- What a new session is created with: two random identifiers and a refresh credential. -/
structure DrawnSession where
  sessionId : String
  credential : IssuedRefreshCredential
deriving DecidableEq

/-- What the caller gets: the user, as read with the session, and the refresh cookie that is set. -/
structure SignedIn where
  user : Option User
  refreshToken : String
  rememberMe : Bool
deriving DecidableEq

/-- `session.create` without its refresh token. Two inserts of one identifier wait for each other.
-/
def insertSession (session : Session) (expectedPasswordHash : Option String) :
    Script auth Unit := do
  let accepted ← change .insertSession (fun _ => [.session session.id])
    (fun v db => if session.id ∈ v.db.issuedSessions then db
      else db.insertSession session expectedPasswordHash)
    fun v => decide (session.id ∉ v.db.issuedSessions)
  require (accepted = true) (.uniqueConstraint "Session")

/-- `sessionRefreshToken.create`. -/
def insertToken (token : SessionRefreshToken) : Script auth Unit := do
  let accepted ← change .insertToken (fun _ => [.token token.id])
    (fun v db => if token.id ∈ v.db.issuedTokens then db else db.insertToken token)
    fun v => decide (token.id ∉ v.db.issuedTokens)
  require (accepted = true) (.uniqueConstraint "SessionRefreshToken")

/-- `SELECT "password" FROM "users" … FOR UPDATE`. -/
def lockPassword (userId : Nat) : Script auth (Option String) :=
  lockRows .lockUser (fun v => if (v.db.users.get userId).isSome then [.user userId] else [])
    fun v => (v.db.users.get userId).bind User.password

/-- The sign-in verified a hash outside the transaction; it must still be the user's. -/
def checkPassword (userId : Nat) : Option String → Script auth Unit
  | none => pure ()
  | some expected => do
    let password ← lockPassword userId
    require (password = some expected) .sessionCredentialChanged

def newSession (services : Services) (userId : Nat) (metadata : SessionRequestMetadata)
    (drawn : DrawnSession) (rememberMe : Bool) (now : Nat) : Session where
  id := drawn.sessionId
  userId := userId
  refreshTokenHash := drawn.credential.hash
  expiresAt := services.getRefreshExpiresAt now rememberMe
  revokedAt := none
  revokedReason := none
  lastUsedAt := some now
  rotatedAt := some now
  rememberMe := rememberMe
  userAgent := metadata.userAgent
  ipHash := metadata.ipHash

/-- The rest of the transaction: the user must exist, and gets a session with its first token. -/
def storeSession (services : Services) (userId : Nat) (metadata : SessionRequestMetadata)
    (drawn : DrawnSession) (rememberMe : Bool) (expectedPasswordHash : Option String) (now : Nat) :
    Script auth (Except Failure SignedIn) := do
  let user ← query .findUser fun v => v.db.users.get userId
  match user with
  | none => fail .unauthorized
  | some user =>
    insertSession (newSession services userId metadata drawn rememberMe now) expectedPasswordHash
    insertToken ⟨drawn.credential.tokenId, drawn.sessionId, drawn.credential.hash, none⟩
    pure (.ok ⟨some user, drawn.sessionId ++ "." ++ drawn.credential.credential, rememberMe⟩)

def createSession (services : Services) (userId : Nat) (metadata : SessionRequestMetadata)
    (drawn : DrawnSession) (rememberMe : Bool) (expectedPasswordHash : Option String) :
    Script auth (Except Failure SignedIn) := do
  let now ← readClock
  transaction transactionTimeoutMs (do
    checkPassword userId expectedPasswordHash
    storeSession services userId metadata drawn rememberMe expectedPasswordHash now) refuse

structure RefreshContext where
  parsedToken : ParsedRefreshToken
  refreshToken : SessionRefreshToken
  session : Session
  user : Option User
deriving DecidableEq

def RefreshContext.credentialHash (context : RefreshContext) : String :=
  context.refreshToken.credentialHash

def assertRefreshAllowed (session : Session) (now : Nat) : Script auth (Except Failure Unit) := do
  if session.revokedAt.isSome then
    refuse .unauthorized
  else if session.expiresAt ≤ now then
    match ← revokeSession .markExpired session.id now .expired with
    | .error error => refuse error
    | .ok () => refuse .unauthorized
  else pure (.ok ())

def loadAndValidateRefreshContext (services : Services) (cookie : Option String) (now : Nat) :
    Script auth (Except Failure RefreshContext) := do
  match parseRefreshToken cookie with
  | none => refuse .unauthorized
  | some parsedToken =>
    let refreshToken ← query .findToken fun v => v.db.tokens.get parsedToken.tokenId
    let found ← query .findSession fun v =>
      (v.db.sessions.get parsedToken.sessionId).map fun s => (s, v.db.users.get s.userId)
    match found with
    | none => refuse .unauthorized
    | some (session, user) =>
      match ← assertRefreshAllowed session now with
      | .error error => refuse error
      | .ok () =>
        match refreshToken with
        | none => refuse .unauthorized
        | some refreshToken =>
          if refreshToken.sessionId = session.id ∧
              services.verifyRefreshCredential parsedToken.refreshCredential
                refreshToken.credentialHash = true then
            pure (.ok ⟨parsedToken, refreshToken, session, user⟩)
          else refuse .unauthorized

/-- The distance of two times. -/
def reuseAge (now consumedAt : Nat) : Nat := ((now : Int) - consumedAt).natAbs

def handleConsumedRefreshToken (context : RefreshContext) (now : Nat) :
    Script auth (Except Failure Unit) := do
  match context.refreshToken.consumedAt with
  | none => pure (.ok ())
  | some consumedAt =>
    if context.session.rotatedAt = some consumedAt ∧
      reuseAge now consumedAt ≤ refreshReuseGraceMs then
      refuse .unauthorized
    else
      let _ ← revokeSessions .revokeReused (fun s => s.id = context.session.id ∧ s.revokedAt = none)
        now .refreshReuse
      refuse .unauthorized

def rotateRefreshCredentialAtomically (context : RefreshContext)
    (nextCredential : IssuedRefreshCredential) (metadata : SessionRequestMetadata) (now : Nat) :
    Script auth (Except Failure Unit) :=
  let matchesSession : Session → Bool := fun s => s.id = context.session.id ∧
    s.refreshTokenHash = context.credentialHash ∧ s.revokedAt = none ∧ now < s.expiresAt
  let matchesToken : SessionRefreshToken → Bool := fun t => t.id = context.parsedToken.tokenId ∧
    t.sessionId = context.session.id ∧ t.credentialHash = context.credentialHash ∧
      t.consumedAt = none
  transaction transactionTimeoutMs (do
    let rotated ← change .rotateSession (fun v => (v.db.sessions.select matchesSession).map fun s =>
      .session s.id)
      (fun v db =>
        db.rotateSessions ((v.db.sessions.select matchesSession).map Session.id) nextCredential.hash
        now metadata)
      fun v => (v.db.sessions.select matchesSession).length
    require (rotated = 1) .sessionRotationConflict
    let consumed ← change .consumeToken (fun v => (v.db.tokens.select matchesToken).map fun t =>
      .token t.id)
      (fun v db =>
        db.consumeTokens ((v.db.tokens.select matchesToken).map SessionRefreshToken.id) now)
      fun v => (v.db.tokens.select matchesToken).length
    require (consumed = 1) .sessionRotationConflict
    insertToken ⟨nextCredential.tokenId, context.session.id, nextCredential.hash, none⟩
    pure (.ok ())) refuse

/-- `now` is the time at which the call starts and `nextCredential` the credential it draws. -/
def refreshSession (services : Services) (now : Nat) (cookie : Option String)
    (metadata : SessionRequestMetadata) (nextCredential : IssuedRefreshCredential) :
    Script auth (Except Failure SignedIn) := do
  match ← loadAndValidateRefreshContext services cookie now with
  | .error error => refuse error
  | .ok context =>
    match ← handleConsumedRefreshToken context now with
    | .error error => refuse error
    | .ok () =>
      match ← rotateRefreshCredentialAtomically context nextCredential metadata now with
      | .error .sessionRotationConflict => refuse .unauthorized
      | .error error => refuse error
      | .ok () =>
        pure (.ok ⟨context.user, context.session.id ++ "." ++ nextCredential.credential,
          context.session.rememberMe⟩)

def logout (services : Services) (cookie : Option String) : Script auth (Except Failure Bool) := do
  match parseRefreshToken cookie with
  | none => pure (.ok true)
  | some parsedToken =>
    let session ← query .findSession fun v => v.db.sessions.get parsedToken.sessionId
    match session with
    | none => pure (.ok true)
    | some session =>
      if session.revokedAt.isNone ∧
          services.verifyRefreshCredential parsedToken.refreshCredential session.refreshTokenHash =
            true then
        let revokedAt ← readClock
        match ← revokeSession .revokeLoggedOut session.id revokedAt .logout with
        | .error error => refuse error
        | .ok () => pure (.ok true)
      else pure (.ok true)

def logoutAll (userId : Nat) : Script auth (Except Failure Bool) := do
  let revokedAt ← readClock
  let _ ← revokeSessions .revokeAll (fun s => s.userId = userId ∧ s.revokedAt = none)
    revokedAt .logoutAll
  pure (.ok true)

end Pixaeron.Auth
