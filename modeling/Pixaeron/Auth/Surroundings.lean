import Mathlib.Data.List.Basic
import Pixaeron.Transactions.World
import Pixaeron.Auth.Schema

/-! # What the auth services work with

The rows they lock, the errors they raise, the hash functions they call and the credentials they
draw.
-/

namespace Pixaeron.Auth

open Transactions

/-- What a transaction can hold a lock on: rows, the entries of unique indexes, and `tokenIssue`,
the advisory lock under which one-time tokens are issued. -/
inductive Resource where
  | user (id : Nat)
  | userEmail (email : String)
  | account (provider providerAccountId : String)
  | session (id : String)
  | token (id : String)
  | authToken (id : String)
  | authTokenHash (tokenHash : String)
  | activeAuthToken (userId : Nat) (type : AuthTokenType)
  | tokenIssue (userId : Nat) (type : AuthTokenType)
deriving DecidableEq

inductive Failure where
  | unauthorized
  | emailNotVerified
  | sessionCredentialChanged
  | sessionRotationConflict
  | emailAlreadyRegistered
  | legalConsentRequired
  | googleTokenInvalid
  | googleEmailNotVerified
  | accountLinkRequired
  | recordNotFound (modelName : String)
  | uniqueConstraint (target : String)
  | rolledBack
deriving DecidableEq

/-- Names for the SQL statements of the services. -/
inductive Statement where
  | lockUser
  | findUser
  | findUserByEmail
  | insertUser
  | findAccount
  | insertAccount
  | findCommittedAccount
  | findCommittedUser
  | insertSession
  | insertToken
  | findToken
  | findSession
  | markExpired
  | revokeReused
  | rotateSession
  | consumeToken
  | revokeLoggedOut
  | revokeAll
  | findAuthToken
  | findAuthTokenAgain
  | consumeAuthToken
  | discardAuthToken
  | setEmailVerified
  | setPassword
  | revokeOldSessions
  | lockTokenIssue
  | consumeOlderTokens
  | insertAuthToken
  | deleteAuthTokens
  | deleteSessions
deriving DecidableEq

abbrev auth : Vocabulary where
  Db := Database
  Res := Resource
  Ext := Unit
  Reply := Unit
  Err := Failure
  Name := Statement
  rolledBack := .rolledBack

/-- What the services are configured with: the comparisons of the password hash, the digest of
one-time tokens, and the lifetimes of a session with and without `rememberMe`. -/
structure Services where
  verifyRefreshCredential : String → String → Bool
  comparePassword : String → String → Bool
  invalidPasswordHash : String
  digest : String → String
  trim : String → String
  toLowerCase : String → String
  refreshExpirationMs : Nat
  sessionRefreshExpirationMs : Nat

/-- Prisma's time limit for an interactive transaction that asks for none. -/
def transactionTimeoutMs : Nat := 5000

def refreshReuseGraceMs : Nat := 3000

structure IssuedRefreshCredential where
  credential : String
  hash : String
  tokenId : String
deriving DecidableEq

structure ParsedRefreshToken where
  sessionId : String
  tokenId : String
  refreshCredential : String
deriving DecidableEq

/-- `sessionId.tokenId.secret`, none of them empty. -/
def parseRefreshToken (refreshToken : Option String) : Option ParsedRefreshToken :=
  match refreshToken.map fun text => (text.toList.splitOn '.').map String.ofList with
  | some [sessionId, tokenId, secret] =>
    if sessionId ≠ "" ∧ tokenId ≠ "" ∧ secret ≠ "" then
      some ⟨sessionId, tokenId, tokenId ++ "." ++ secret⟩
    else none
  | _ => none

namespace Services

variable (services : Services)

def getRefreshExpiresAt (now : Nat) (rememberMe : Bool) : Nat :=
  now + if rememberMe then services.refreshExpirationMs else services.sessionRefreshExpirationMs

def verifyPassword (password : String) (passwordHash : Option String) : Bool :=
  services.comparePassword password (passwordHash.getD services.invalidPasswordHash)

def normalizeEmail (email : String) : String := services.toLowerCase (services.trim email)

end Services

/-- `if (!condition) throw error`. -/
def require (condition : Prop) [Decidable condition] (error : Failure) : Script auth Unit :=
  if condition then .done () else .fail error

/-- An error that reaches the caller. -/
def refuse {α : Type} (error : Failure) : Script auth (Except Failure α) := .done (.error error)

/-- `session.updateMany` that revokes the sessions that match. -/
def revokeSessions (name : Statement) (where_ : Session → Bool) (revokedAt : Nat)
    (reason : SessionRevokedReason) :
    Script auth Nat :=
  Script.change name (fun v => (v.db.sessions.select where_).map fun s => .session s.id)
    (fun v db => db.revokeSessions ((v.db.sessions.select where_).map Session.id) revokedAt reason)
    fun v => (v.db.sessions.select where_).length

/-- `session.update` that revokes the session of an identifier, whatever it looks like by now. -/
def revokeSession (name : Statement) (id : String) (revokedAt : Nat)
    (reason : SessionRevokedReason) :
    Script auth (Except Failure Unit) :=
  Script.change name (fun v => if (v.db.sessions.get id).isSome then [.session id] else [])
    (fun _ db => db.revokeSessions [id] revokedAt reason)
    fun v => if (v.db.sessions.get id).isSome then .ok () else .error (.recordNotFound "Session")

end Pixaeron.Auth
