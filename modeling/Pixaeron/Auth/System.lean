import Pixaeron.Auth.PasswordSignIn

/-! # The auth system

Every call that works on sessions and passwords. A world runs any number of them at the same
time, statement by statement. A call of `createSession` is a sign-in without a password.

Audit events, cookies that are cleared, the login throttle and the captcha are left out: no
statement here reads what they write, and they can only refuse a call earlier.
-/

namespace Pixaeron.Auth

open Transactions Transactions.Script

inductive Call where
  | createSession (userId : Nat) (metadata : SessionRequestMetadata) (drawn : DrawnSession)
      (rememberMe : Bool)
  | login (email password : String) (metadata : SessionRequestMetadata) (drawn : DrawnSession)
      (rememberMe : Bool)
  | refreshSession (now : Nat) (cookie : Option String) (metadata : SessionRequestMetadata)
    (nextCredential : IssuedRefreshCredential)
  | logout (cookie : Option String)
  | logoutAll (userId : Nat)
  | requestPasswordReset (email : String) (drawn : DrawnAuthToken)
  | resetPassword (token passwordHash : String)
  | deleteExpiredData
deriving DecidableEq

inductive Outcome where
  | signedIn (result : Except Failure SignedIn)
  | refreshed (result : Except Failure SignedIn)
  | loggedOut (result : Except Failure Bool)
  | requested (result : Except Failure Unit)
  | passwordReset (result : Except Failure PasswordResetStatus)
  | cleaned (result : Except Failure Unit)
deriving DecidableEq

variable (services : Services)

def scriptOf : Call → Script auth Outcome
  | .createSession userId metadata drawn rememberMe => do
    pure (.signedIn (← createSession services userId metadata drawn rememberMe none))
  | .login email password metadata drawn rememberMe => do
    pure (.signedIn (← login services email password metadata drawn rememberMe))
  | .refreshSession now cookie metadata nextCredential => do
    pure (.refreshed (← refreshSession services now cookie metadata nextCredential))
  | .logout cookie => do pure (.loggedOut (← logout services cookie))
  | .logoutAll userId => do pure (.loggedOut (← logoutAll userId))
  | .requestPasswordReset email drawn =>
    do pure (.requested (← requestPasswordReset services email drawn))
  | .resetPassword token passwordHash =>
    do pure (.passwordReset (← resetPassword services token passwordHash))
  | .deleteExpiredData => do pure (.cleaned (← deleteExpiredData))

/-- A refresh starts at the time that its first line reads. -/
def Call.startsAt : Call → Nat → Prop
  | .refreshSession now _ _ _, time => now = time
  | _, _ => True

instance (call : Call) (time : Nat) : Decidable (call.startsAt time) := by
  cases call <;> unfold Call.startsAt <;> infer_instance

def system : World.Program auth Call Outcome := fun call s =>
  if call.startsAt s.now then some (s.ext, scriptOf services call) else none

/-- Any users and any one-time tokens, and no session yet. -/
structure Genesis where
  rows : Database
  fresh : rows.Fresh

def start (now : Nat) (genesis : Genesis) : World auth Call Outcome :=
  World.idle now genesis.rows ()

end Pixaeron.Auth
