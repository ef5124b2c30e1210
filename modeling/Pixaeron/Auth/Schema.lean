import Pixaeron.Transactions.Table

/-! # The tables of the auth service

Users, their accounts with other providers, sessions, their refresh tokens and the one-time tokens
of account e-mails, with the changes that the services make to them.
-/

namespace Pixaeron.Auth

open Transactions

structure User where
  id : Nat
  publicId : String
  email : String
  password : Option String
  emailVerified : Bool
deriving DecidableEq

/-- An identity that a provider vouches for. -/
structure Account where
  userId : Nat
  provider : String
  providerAccountId : String
  email : Option String
deriving DecidableEq

def Account.key (a : Account) : String × String := (a.provider, a.providerAccountId)

inductive SessionRevokedReason where
  | logout
  | logoutAll
  | refreshReuse
  | passwordChanged
  | expired
  | adminRevoked
  | securityRisk
deriving DecidableEq

structure Session where
  id : String
  userId : Nat
  refreshTokenHash : String
  expiresAt : Nat
  revokedAt : Option Nat
  revokedReason : Option SessionRevokedReason
  lastUsedAt : Option Nat
  rotatedAt : Option Nat
  rememberMe : Bool
  userAgent : Option String
  ipHash : Option String
deriving DecidableEq

structure SessionRefreshToken where
  id : String
  sessionId : String
  credentialHash : String
  consumedAt : Option Nat
deriving DecidableEq

inductive AuthTokenType where
  | emailVerification
  | passwordReset
deriving DecidableEq

structure AuthToken where
  id : String
  userId : Nat
  type : AuthTokenType
  tokenHash : String
  expiresAt : Nat
  consumedAt : Option Nat
deriving DecidableEq

structure SessionRequestMetadata where
  userAgent : Option String
  ipHash : Option String
deriving DecidableEq

/-! ## Changes of one row -/

def User.setPassword (hash : String) (u : User) : User := { u with password := some hash }

def User.verifyEmail (u : User) : User := { u with emailVerified := true }

def Session.revoke (at_ : Nat) (reason : SessionRevokedReason) (s : Session) : Session :=
  { s with revokedAt := some at_, revokedReason := some reason }

def Session.rotate (hash : String) (now : Nat) (metadata : SessionRequestMetadata)
    (s : Session) : Session :=
  { s with
    refreshTokenHash := hash
    lastUsedAt := some now
    rotatedAt := some now
    userAgent := metadata.userAgent
    ipHash := metadata.ipHash }

def SessionRefreshToken.consume (now : Nat) (t : SessionRefreshToken) : SessionRefreshToken :=
  { t with consumedAt := some now }

def AuthToken.consume (now : Nat) (t : AuthToken) : AuthToken := { t with consumedAt := some now }

@[simp] theorem User.setPassword_id (hash : String) (u : User) :
    (u.setPassword hash).id = u.id := rfl

@[simp] theorem User.verifyEmail_id (u : User) : u.verifyEmail.id = u.id := rfl

@[simp] theorem Session.revoke_id (at_ : Nat) (reason : SessionRevokedReason) (s : Session) :
    (s.revoke at_ reason).id = s.id := rfl

@[simp] theorem Session.rotate_id (hash : String) (now : Nat) (metadata : SessionRequestMetadata)
    (s : Session) :
    (s.rotate hash now metadata).id = s.id := rfl

@[simp] theorem SessionRefreshToken.consume_id (now : Nat) (t : SessionRefreshToken) :
    (t.consume now).id = t.id := rfl

@[simp] theorem AuthToken.consume_id (now : Nat) (t : AuthToken) : (t.consume now).id = t.id := rfl

/-! ## Changes of the tables -/

/-- The rows of the five tables. `issuedSessions` and `issuedTokens` remember the identifiers that
have ever been used, and `issuedAuthTokens` those of one-time tokens with their hashes, so that none
is drawn twice. `signIns` only observes: for a session that was created under the condition that the
user still has a certain password hash, that hash. -/
structure Database where
  users : Table User.id
  accounts : Table Account.key
  sessions : Table Session.id
  tokens : Table SessionRefreshToken.id
  authTokens : Table AuthToken.id
  issuedSessions : List String
  issuedTokens : List String
  issuedAuthTokens : List (String × String)
  signIns : List (String × String)

namespace Database

def insertUser (db : Database) (u : User) : Database := { db with users := db.users.insert u }

def insertAccount (db : Database) (a : Account) : Database :=
  { db with accounts := db.accounts.insert a }

def verifyEmail (db : Database) (userId : Nat) : Database :=
  { db with users := db.users.modify [userId] User.verifyEmail User.verifyEmail_id }

def setPassword (db : Database) (userId : Nat) (hash : String) : Database :=
  { db with users := db.users.modify [userId] (User.setPassword hash) (User.setPassword_id hash) }

def revokeSessions (db : Database) (ids : List String) (at_ : Nat)
    (reason : SessionRevokedReason) : Database :=
  { db with sessions :=
    db.sessions.modify ids (Session.revoke at_ reason) (Session.revoke_id at_ reason) }

def rotateSessions (db : Database) (ids : List String) (hash : String) (now : Nat)
    (metadata : SessionRequestMetadata) : Database :=
  { db with
    sessions := db.sessions.modify ids (Session.rotate hash now metadata)
      (Session.rotate_id hash now metadata) }

def consumeTokens (db : Database) (ids : List String) (now : Nat) : Database :=
  { db with
    tokens := db.tokens.modify ids (SessionRefreshToken.consume now)
      (SessionRefreshToken.consume_id now) }

/-- `expectedPasswordHash` is the hash that the user had to have still, if any. -/
def insertSession (db : Database) (s : Session) (expectedPasswordHash : Option String) : Database :=
  { db with
    sessions := db.sessions.insert s
    issuedSessions := s.id :: db.issuedSessions
    signIns := (expectedPasswordHash.map fun hash => (s.id, hash)).toList ++ db.signIns }

def insertToken (db : Database) (t : SessionRefreshToken) : Database :=
  { db with tokens := db.tokens.insert t, issuedTokens := t.id :: db.issuedTokens }

def consumeAuthTokens (db : Database) (ids : List String) (now : Nat) : Database :=
  { db with authTokens :=
    db.authTokens.modify ids (AuthToken.consume now) (AuthToken.consume_id now) }

def insertAuthToken (db : Database) (t : AuthToken) : Database :=
  { db with
    authTokens := db.authTokens.insert t
    issuedAuthTokens := (t.id, t.tokenHash) :: db.issuedAuthTokens }

def deleteAuthTokens (db : Database) (p : AuthToken → Bool) : Database :=
  { db with authTokens := db.authTokens.delete p }

/-- The refresh tokens of a session go with it. -/
def deleteSessions (db : Database) (ids : List String) : Database :=
  { db with
    sessions := db.sessions.delete fun s => s.id ∈ ids
    tokens := db.tokens.delete fun t => t.sessionId ∈ ids }

@[simp] theorem consumeAuthTokens_nil (db : Database) (now : Nat) :
    db.consumeAuthTokens [] now = db := by
  simp [consumeAuthTokens]

/-- Nobody has a session, and no identifier has been drawn. -/
structure Fresh (db : Database) : Prop where
  sessions : db.sessions.rows = []
  tokens : db.tokens.rows = []
  signIns : db.signIns = []

def userByEmail (db : Database) (email : String) : Option User :=
  db.users.rows.find? fun u => u.email = email

/-- A refresh token that has not been used yet. -/
def current (db : Database) (sessionId : String) : List SessionRefreshToken :=
  db.tokens.select fun t => t.sessionId = sessionId ∧ t.consumedAt = none

end Database

end Pixaeron.Auth
