import Pixaeron.Auth.PasswordSignIn

/-! # Registration, e-mail verification and Google sign-in

The calls that create users, issue and use one-time tokens, and sign in with Google. A world runs
any number of them at the same time, statement by statement.

The e-mails themselves, captchas, cool-downs, audit events and user names are left out: no statement
here reads what they write, and they can only refuse a call earlier or come after its last commit.
-/

namespace Pixaeron.Auth

open Transactions Transactions.Script

/-! ## Users and accounts -/

def Failure.isUniqueConstraint : Failure → Bool
  | .uniqueConstraint _ => true
  | _ => false

structure LegalConsent where
  accepted : Option Bool
  version : Option String
deriving DecidableEq

def currentLegalConsentVersion : String := "2026-07-26-v2"

/-- `assertCurrentLegalConsent`. -/
def LegalConsent.isCurrent (consent : LegalConsent) : Prop :=
  consent.accepted = some true ∧ consent.version = some currentLegalConsentVersion

instance (consent : LegalConsent) : Decidable consent.isCurrent :=
  inferInstanceAs (Decidable (_ ∧ _))

/-- What keeps a new row out of `users`. The sequence of identifiers never repeats: a run that
draws one again is none of the database, which gives it up. -/
def Database.userClash (db : Database) (new : User) : Option Failure :=
  if (db.users.get new.id).isSome then some .rolledBack
  else if (db.userByEmail new.email).isSome then some (.uniqueConstraint "User")
  else none

/-- `user.create`. Two inserts of one e-mail address wait for each other. -/
def createUser (new : User) : Script auth Unit := do
  let clash ← change .insertUser (fun _ => [.user new.id, .userEmail new.email])
    (fun v db => if v.db.userClash new = none then db.insertUser new else db) fun v =>
      v.db.userClash new
  match clash with
  | none => pure ()
  | some error => fail error

/-- `accounts: { create: … }`. -/
def createAccount (new : Account) : Script auth Unit := do
  let accepted ← change .insertAccount (fun _ => [.account new.provider new.providerAccountId])
    (fun v db => if (v.db.accounts.get new.key).isNone then db.insertAccount new else db)
    fun v => (v.db.accounts.get new.key).isNone
  require (accepted = true) (.uniqueConstraint "Account")

/-- The identifiers that the database draws for a new user. -/
structure DrawnUser where
  id : Nat
  publicId : String
deriving DecidableEq

/-! ## Registration -/

structure RegisterInput where
  email : String
  consent : LegalConsent
deriving DecidableEq

/-- `passwordHash` is the salted hash of the password that the call draws. -/
def register (services : Services) (input : RegisterInput) (passwordHash : String)
    (user : DrawnUser) (token : DrawnAuthToken) : Script auth (Except Failure String) := do
  let email := services.normalizeEmail input.email
  if ¬ input.consent.isCurrent then refuse .legalConsentRequired else
    let existingUser ← query .findUserByEmail fun v => v.db.userByEmail email
    match existingUser with
    | some _ => refuse .emailAlreadyRegistered
    | none =>
      transaction transactionTimeoutMs (do
        createUser ⟨user.id, user.publicId, email, some passwordHash, false⟩
        let _ ← issueInTransaction services user.id .emailVerification token
        pure (.ok email)) fun error =>
          if error.isUniqueConstraint then refuse .emailAlreadyRegistered else refuse error

def resendEmailVerification (services : Services) (email : String) (drawn : DrawnAuthToken) :
    Script auth (Except Failure Unit) := do
  let user ← query .findUserByEmail fun v => v.db.userByEmail (services.normalizeEmail email)
  match user with
  | some user =>
    if user.emailVerified then pure (.ok ()) else
      transaction transactionTimeoutMs (do
        let _ ← issueInTransaction services user.id .emailVerification drawn
        pure (.ok ())) refuse
  | none => pure (.ok ())

/-! ## Verification -/

inductive EmailVerificationStatus where
  | verified
  | alreadyVerified
  | invalid
  | expired
deriving DecidableEq

/-- `findInTransaction`, with the user of the token. -/
def findAuthTokenWithUser (services : Services) (name : Statement) (token : String)
    (type : AuthTokenType) :
    Script auth (Option (AuthToken × Option User)) :=
  query name fun v =>
    (v.db.authTokens.rows.find? fun t => t.tokenHash = services.digest token ∧ t.type = type).map
    fun t => (t, v.db.users.get t.userId)

def isVerified (found : Option (AuthToken × Option User)) : Bool :=
  found.any fun p => p.2.any User.emailVerified

/-- `user.update` that marks the e-mail address as verified. -/
def setEmailVerified (userId : Nat) : Script auth Unit := do
  let found ← change .setEmailVerified (fun v =>
    if (v.db.users.get userId).isSome then [.user userId] else [])
    (fun _ db => db.verifyEmail userId) fun v => (v.db.users.get userId).isSome
  require (found = true) (.recordNotFound "User")

def verifyInTransaction (services : Services) (token : String) :
    Script auth EmailVerificationStatus := do
  let now ← readClock
  let found ← findAuthTokenWithUser services .findAuthToken token .emailVerification
  match found with
  | none => pure .invalid
  | some (authToken, user) =>
    if user.any User.emailVerified then
      let _ ← consumeAuthTokens .discardAuthToken
        (fun t => t.id = authToken.id ∧ t.consumedAt = none) now
      pure .alreadyVerified
    else if authToken.consumedAt.isSome then pure .invalid
    else if authToken.expiresAt ≤ now then pure .expired
    else
      let consumed ← consumeAuthTokens .consumeAuthToken
        (fun t => t.id = authToken.id ∧ t.consumedAt = none ∧ now < t.expiresAt) now
      if consumed ≠ 1 then
        let current ← findAuthTokenWithUser services .findAuthTokenAgain token .emailVerification
        pure (if isVerified current then .alreadyVerified else .invalid)
      else
        setEmailVerified authToken.userId
        pure .verified

def verifyEmail (services : Services) (token : String) :
    Script auth (Except Failure EmailVerificationStatus) :=
  transaction transactionTimeoutMs (do
    let status ← verifyInTransaction services token
    pure (.ok status)) refuse

/-! ## Google sign-in -/

/-- What a verified identity token carries; a text that it lacks is empty. -/
structure GoogleTokenPayload where
  sub : String
  email : String
  emailVerified : Bool
deriving DecidableEq

structure GoogleUserProfile where
  providerAccountId : String
  email : String
  emailVerified : Bool
deriving DecidableEq

def verifyIdToken (services : Services) (payload : GoogleTokenPayload) :
    Except Failure GoogleUserProfile :=
  if payload.sub = "" ∨ payload.email = "" then .error .googleTokenInvalid
  else .ok ⟨payload.sub, services.normalizeEmail payload.email, payload.emailVerified⟩

def google : String := "google"

/-- The transaction of `login`: the user of the account, who is created with it if need be. -/
def findOrCreateUser (profile : GoogleUserProfile) (consent : LegalConsent)
    (drawn : DrawnUser) : Script auth Nat := do
  let account ← query .findAccount fun v => v.db.accounts.get (google, profile.providerAccountId)
  match account with
  | some account => pure account.userId
  | none =>
    let existingUser ← query .findUserByEmail fun v => v.db.userByEmail profile.email
    require (existingUser = none) .accountLinkRequired
    require consent.isCurrent .legalConsentRequired
    createUser ⟨drawn.id, drawn.publicId, profile.email, none, profile.emailVerified⟩
    createAccount ⟨drawn.id, google, profile.providerAccountId, some profile.email⟩
    pure drawn.id

/-- What `login` does after a unique constraint has failed. -/
def findCommittedUser (profile : GoogleUserProfile) (error : Failure) :
    Script auth (Except Failure Nat) := do
  let account ← query .findCommittedAccount fun v =>
    v.db.accounts.get (google, profile.providerAccountId)
  match account with
  | some account => pure (.ok account.userId)
  | none =>
    let existingUser ← query .findCommittedUser fun v => v.db.userByEmail profile.email
    if existingUser.isSome then refuse .accountLinkRequired else refuse error

def googleUser (profile : GoogleUserProfile) (consent : LegalConsent) (drawn : DrawnUser) :
    Script auth (Except Failure Nat) :=
  transaction transactionTimeoutMs (do
    let userId ← findOrCreateUser profile consent drawn
    pure (.ok userId)) fun error =>
      if error.isUniqueConstraint then findCommittedUser profile error else refuse error

def googleLogin (services : Services) (payload : GoogleTokenPayload) (consent : LegalConsent)
    (metadata : SessionRequestMetadata) (user : DrawnUser) (session : DrawnSession)
    (rememberMe : Bool) :
    Script auth (Except Failure SignedIn) := do
  match verifyIdToken services payload with
  | .error error => refuse error
  | .ok profile =>
    if profile.emailVerified = false then refuse .googleEmailNotVerified else
      let found ← googleUser profile consent user
      match found with
      | .error error => refuse error
      | .ok userId => createSession services userId metadata session rememberMe none

/-! ## The system -/

inductive AccountCall where
  | register (input : RegisterInput) (passwordHash : String) (user : DrawnUser)
      (token : DrawnAuthToken)
  | resendEmailVerification (email : String) (drawn : DrawnAuthToken)
  | requestPasswordReset (email : String) (drawn : DrawnAuthToken)
  | verifyEmail (token : String)
  | resetPassword (token passwordHash : String)
  | deleteExpiredData
  | googleLogin (payload : GoogleTokenPayload) (consent : LegalConsent)
      (metadata : SessionRequestMetadata)
    (user : DrawnUser) (session : DrawnSession) (rememberMe : Bool)
deriving DecidableEq

inductive AccountOutcome where
  | registered (result : Except Failure String)
  | requested (result : Except Failure Unit)
  | emailVerification (result : Except Failure EmailVerificationStatus)
  | passwordReset (result : Except Failure PasswordResetStatus)
  | cleaned (result : Except Failure Unit)
  | signedIn (result : Except Failure SignedIn)
deriving DecidableEq

variable (services : Services)

def accountScript : AccountCall → Script auth AccountOutcome
  | .register input passwordHash user token =>
    do pure (.registered (← register services input passwordHash user token))
  | .resendEmailVerification email drawn =>
    do pure (.requested (← resendEmailVerification services email drawn))
  | .requestPasswordReset email drawn =>
    do pure (.requested (← requestPasswordReset services email drawn))
  | .verifyEmail token => do pure (.emailVerification (← verifyEmail services token))
  | .resetPassword token passwordHash =>
    do pure (.passwordReset (← resetPassword services token passwordHash))
  | .deleteExpiredData => do pure (.cleaned (← deleteExpiredData))
  | .googleLogin payload consent metadata user session rememberMe => do
    pure (.signedIn (← googleLogin services payload consent metadata user session rememberMe))

def accountSystem : World.Program auth AccountCall AccountOutcome :=
  fun call s => some (s.ext, accountScript services call)

def emptyDatabase : Database where
  users := .empty
  accounts := .empty
  sessions := .empty
  tokens := .empty
  authTokens := .empty
  issuedSessions := []
  issuedTokens := []
  issuedAuthTokens := []
  signIns := []

/-- Nobody has registered yet. -/
def accountStart (now : Nat) : World auth AccountCall AccountOutcome :=
  World.idle now emptyDatabase ()

namespace Sample

/-- Hashes are marked by a `#`. -/
def accountServices : Services :=
  ⟨fun credential hash => hash == "#" ++ credential, fun password hash => hash == "#" ++ password,
    "", id, id, id, 100000, 100000⟩

def consent : LegalConsent := ⟨some true, some currentLegalConsentVersion⟩

def steps (sid count : Nat) : List (Action auth AccountCall) := List.replicate count (.run sid)

def accountRun (actions : List (Action auth AccountCall)) :
    Option (World auth AccountCall AccountOutcome) :=
  World.run (accountSystem accountServices) (accountStart 0) actions

end Sample

end Pixaeron.Auth
