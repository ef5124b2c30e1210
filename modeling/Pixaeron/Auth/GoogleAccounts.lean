import Pixaeron.Transactions.Writes
import Pixaeron.Transactions.Ledger
import Pixaeron.Auth.Accounts

/-! # The ledger of users and their accounts

Users and accounts stay, and a user keeps the e-mail address. A transaction puts in at most one
user, with an address that nobody has, and an account only together with its user.
-/

namespace Pixaeron.Auth.Google

open Transactions Transactions.Script

abbrev AccountEntry := Entry auth AccountCall

/-- A login whose identity token has been verified. -/
structure Login where
  profile : GoogleUserProfile
  consent : LegalConsent
  user : DrawnUser

namespace Login

variable (l : Login)

def key : String × String := (google, l.profile.providerAccountId)

def newUser : User := ⟨l.user.id, l.user.publicId, l.profile.email, none, l.profile.emailVerified⟩

def newAccount : Account := ⟨l.user.id, google, l.profile.providerAccountId, some l.profile.email⟩

end Login

def profileOf (services : Services) (payload : GoogleTokenPayload) : GoogleUserProfile :=
  ⟨payload.sub, services.normalizeEmail payload.email, payload.emailVerified⟩

def loginOf (services : Services) : AccountCall → Option Login
  | .googleLogin payload consent _ user _ _ => some ⟨profileOf services payload, consent, user⟩
  | _ => none

/-! ## Databases -/

def emailOf (db : Database) (id : Nat) : Option String := (db.users.get id).map User.email

theorem emailOf_insertUser {db : Database} {u : User} {id : Nat} :
    emailOf (db.insertUser u) id = (emailOf db id).or
      (if u.id = id then some u.email else none) := by
  rw [emailOf, Database.insertUser, Table.get_insert, emailOf]
  cases db.users.get id with
  | none => split <;> rfl
  | some _ => rfl

theorem emailOf_of_userByEmail {db : Database} {email : String} {u : User}
    (h : db.userByEmail email = some u) :
    emailOf db u.id = some email := by
  have hEmail := List.find?_some h
  rw [emailOf, Table.get_of_mem (List.mem_of_find?_eq_some h), Option.map_some,
    of_decide_eq_true hEmail]

theorem userByEmail_eq_none {db : Database} {email : String} :
    db.userByEmail email = none ↔ ∀ id, emailOf db id ≠ some email := by
  constructor
  · intro h id hEmail
    obtain ⟨u, hGet, hSame⟩ := Option.map_eq_some_iff.mp hEmail
    exact List.find?_eq_none.mp h u (Table.mem_of_get hGet) (decide_eq_true hSame)
  · intro h
    refine List.find?_eq_none.mpr fun u hu hSame => h u.id ?_
    rw [emailOf, Table.get_of_mem hu, Option.map_some, of_decide_eq_true hSame]

/-- No session has been started, and users and accounts are the same. -/
structure Kept (db db' : Database) : Prop where
  emails : ∀ id, emailOf db' id = emailOf db id
  accounts : db'.accounts = db.accounts
  sessions : ∀ id s', db'.sessions.get id = some s' → ∃ s,
    db.sessions.get id = some s ∧ s'.userId = s.userId

theorem Kept.refl (db : Database) : Kept db db :=
  ⟨fun _ => rfl, rfl, fun _ s hGet => ⟨s, hGet, rfl⟩⟩

theorem Kept.trans {db db' db'' : Database} (h : Kept db db')
    (h' : Kept db' db'') : Kept db db'' where
  emails id := (h'.emails id).trans (h.emails id)
  accounts := h'.accounts.trans h.accounts
  sessions id s'' hGet'' := by
    obtain ⟨s', hGet', hUser'⟩ := h'.sessions id s'' hGet''
    obtain ⟨s, hGet, hUser⟩ := h.sessions id s' hGet'
    exact ⟨s, hGet, hUser'.trans hUser⟩

/-- Users keep their addresses, accounts stay as they are, and a new account is of a new user. -/
structure Later (db db' : Database) : Prop where
  emails : ∀ id email, emailOf db id = some email → emailOf db' id = some email
  accounts : ∀ k a, db.accounts.get k = some a → db'.accounts.get k = some a
  owners : ∀ k a, db.accounts.get k = none → db'.accounts.get k = some a →
    emailOf db a.userId = none

theorem Later.refl (db : Database) : Later db db :=
  ⟨fun _ _ h => h, fun _ _ h => h, fun _ _ hNone hSome => by cases hNone.symm.trans hSome⟩

theorem Later.trans {db db' db'' : Database} (h : Later db db')
    (h' : Later db' db'') : Later db db'' where
  emails id email hEmail := h'.emails id email (h.emails id email hEmail)
  accounts k a hGet := h'.accounts k a (h.accounts k a hGet)
  owners k a hNone hSome := by
    cases hMiddle : db'.accounts.get k with
    | none =>
      have hNew := h'.owners k a hMiddle hSome
      cases hOld : emailOf db a.userId with
      | none => rfl
      | some email => cases hNew.symm.trans (h.emails _ _ hOld)
    | some a' =>
      cases (h'.accounts k a' hMiddle).symm.trans hSome
      exact h.owners k a hNone hMiddle

theorem Kept.later {db db' : Database} (h : Kept db db') : Later db db' where
  emails id email hEmail := (h.emails id).trans hEmail
  accounts k a hGet := by
    rw [h.accounts]
    exact hGet
  owners k a hNone hSome := by
    rw [h.accounts] at hSome
    cases hNone.symm.trans hSome

theorem later_insertUser {db : Database} {u : User} : Later db (db.insertUser u) where
  emails id email hEmail := by rw [emailOf_insertUser, hEmail, Option.some_or]
  accounts _ _ hGet := hGet
  owners _ _ hNone hSome := by cases hNone.symm.trans hSome

/-- No two users have one address, every address is normalised, and every account has its user. -/
structure Consistent (services : Services) (db : Database) : Prop where
  unique : ∀ id id' email, emailOf db id = some email → emailOf db id' = some email → id = id'
  normalised : ∀ id email, emailOf db id = some email → ∃ text, email = services.normalizeEmail text
  owned : ∀ k a, db.accounts.get k = some a → ∃ email, emailOf db a.userId = some email

section Consistent

variable {services : Services} {db db' : Database} {u : User}

theorem Consistent.kept (h : Consistent services db) (hKept : Kept db db') :
    Consistent services db' where
  unique id id' email hEmail hEmail' :=
    h.unique id id' email ((hKept.emails id).symm.trans hEmail)
      ((hKept.emails id').symm.trans hEmail')
  normalised id email hEmail := h.normalised id email ((hKept.emails id).symm.trans hEmail)
  owned k a hGet := by
    rw [hKept.accounts] at hGet
    obtain ⟨email, hEmail⟩ := h.owned k a hGet
    exact ⟨email, (hKept.emails _).trans hEmail⟩

theorem Consistent.insertUser (h : Consistent services db) {text : String}
    (hNormal : u.email = services.normalizeEmail text)
    (hFree : ∀ id, emailOf db id ≠ some u.email) : Consistent services (db.insertUser u) := by
  have hCases {id : Nat} {email : String} (hEmail : emailOf (db.insertUser u) id = some email) :
      emailOf db id = some email ∨ (u.id = id ∧ u.email = email) := by
    rw [emailOf_insertUser] at hEmail
    rcases Option.or_eq_some_iff.mp hEmail with hOld | ⟨_, hNew⟩
    · exact .inl hOld
    · split at hNew
      · next hId => exact .inr ⟨hId, Option.some.inj hNew⟩
      · cases hNew
  constructor
  · intro id id' email hEmail hEmail'
    rcases hCases hEmail with hOld | ⟨rfl, rfl⟩
    · rcases hCases hEmail' with hOld' | ⟨rfl, rfl⟩
      · exact h.unique id id' email hOld hOld'
      · exact absurd hOld (hFree id)
    · rcases hCases hEmail' with hOld' | ⟨rfl, _⟩
      · exact absurd hOld' (hFree id')
      · rfl
  · intro id email hEmail
    rcases hCases hEmail with hOld | ⟨_, rfl⟩
    · exact h.normalised id email hOld
    · exact ⟨text, hNormal⟩
  · intro k a hGet
    obtain ⟨email, hEmail⟩ := h.owned k a hGet
    exact ⟨email, later_insertUser.emails _ _ hEmail⟩

end Consistent

/-! ## Entries -/

/-- Why a transaction of a login has failed. -/
inductive Failed (l : Login) (e : AccountEntry) : Failure → Prop
  | rolledBack : Failed l e .rolledBack
  | consent : ¬ l.consent.isCurrent → Failed l e .legalConsentRequired
  | linked {db db' : Database} {u : User} : e.reads =
      [(.findAccount, db), (.findUserByEmail, db')] →
    db.accounts.get l.key = none → db'.userByEmail l.profile.email = some u → Later db' e.before →
    Failed l e .accountLinkRequired
  | taken {target : String} : target = "User" ∨ target = "Account" →
    (∃ id, emailOf e.before id = some l.profile.email) ∨
      (∃ a, e.before.accounts.get l.key = some a) →
    Failed l e (.uniqueConstraint target)
  | session {target : String} : target = "Session" ∨ target = "SessionRefreshToken" →
      Failed l e (.uniqueConstraint target)

/-- What an entry of a login does: it fails, it finds the account or puts it in with its user, it
looks for what has been committed in the meantime, or it starts a session. -/
inductive Logs (l : Login) (e : AccountEntry) : Prop
  | failed {error : Failure} : e.error = some error → e.after = e.before →
      Failed l e error → Logs l e
  | known {db : Database} {a : Account} : e.error = none → e.after = e.before →
      e.reads = [(.findAccount, db)] →
    db.accounts.get l.key = some a → e.before.accounts.get l.key = some a → Logs l e
  | created {db : Database} {more : List (Statement × Database)} : e.error = none →
      e.reads = (.findAccount, db) :: more →
    db.accounts.get l.key = none → emailOf e.before l.user.id = none →
    (∀ id, emailOf e.before id ≠ some l.profile.email) → e.before.accounts.get l.key = none →
    e.after = (e.before.insertUser l.newUser).insertAccount l.newAccount → Logs l e
  | looked {name : Statement} : e.error = none → e.after = e.before → e.reads = [(name, e.before)] →
    name = .findCommittedAccount ∨ name = .findCommittedUser → Logs l e
  | started {db : Database} {more : List (Statement × Database)} {s : Session}
      {a : Account} : e.error = none →
    e.reads = (.findUser, db) :: more → e.before.accounts.get l.key = some a → s.userId = a.userId →
    e.after.users = e.before.users → e.after.accounts = e.before.accounts →
    e.after.sessions = e.before.sessions.insert s → Logs l e

/-- What an entry of another call does: it leaves users and accounts alone, or it registers a user.
-/
inductive Others (services : Services) (e : AccountEntry) : Prop
  | kept : Kept e.before e.after → Others services e
  | registered {u : User} {text : String} : u.email = services.normalizeEmail text →
      emailOf e.before u.id = none →
    (∀ id, emailOf e.before id ≠ some u.email) → Kept (e.before.insertUser u) e.after →
      Others services e

def Legal (services : Services) (e : AccountEntry) : Prop :=
  (∃ l, loginOf services e.call = some l ∧ Logs l e) ∨
    (loginOf services e.call = none ∧ Others services e)

/-- What the holder of a lock relies on: what is not there yet is not put in by anybody else. -/
def Respects : Resource → AccountEntry → Prop
  | .user id, e => emailOf e.before id = none → emailOf e.after id = none
  | .userEmail email, e =>
    (∀ id, emailOf e.before id ≠ some email) → ∀ id, emailOf e.after id ≠ some email
  | .account provider providerAccountId, e =>
    e.before.accounts.get (provider, providerAccountId) = none →
    e.after.accounts.get (provider, providerAccountId) = none
  | _, _ => True

def ledger (services : Services) : Ledger auth AccountCall where
  genesis := emptyDatabase
  Legal := Legal services
  Respects := Respects
  Moves _ _ := True
  Spares _ _ _ := True
  Traffic _ := True
  Free _ _ := True
  Assume _ := True
  moves_refl _ := trivial
  moves_trans _ _ _ _ _ := trivial
  spares_refl _ _ := trivial
  spares_trans _ _ _ _ _ _ _ _ _ := trivial

abbrev discipline (services : Services) : Discipline auth AccountCall :=
  (ledger services).discipline

variable {services : Services} {l : Login} {e : AccountEntry} {s s' : Shared auth AccountCall}
  {held : Resource → Prop}

/-! ## What an entry leaves behind -/

theorem emailOf_congr {db db' : Database} (h : db'.users = db.users) (id : Nat) :
    emailOf db' id = emailOf db id := by
  rw [emailOf, emailOf, h]

theorem later_of_eq {db db' : Database} (hUsers : db'.users = db.users)
    (hAccounts : db'.accounts = db.accounts) : Later db db' where
  emails id email hEmail := (emailOf_congr hUsers id).trans hEmail
  accounts k a hGet := by
    rw [hAccounts]
    exact hGet
  owners k a hNone hSome := by
    rw [hAccounts] at hSome
    cases hNone.symm.trans hSome

theorem get_account_insert {db : Database} {u : User} {a : Account} {k : String × String} :
    ((db.insertUser u).insertAccount a).accounts.get k =
      (db.accounts.get k).or (if a.key = k then some a else none) :=
  Table.get_insert

theorem later_created {db : Database} (hUser : emailOf db l.user.id = none) :
    Later db ((db.insertUser l.newUser).insertAccount l.newAccount) where
  emails id email hEmail := later_insertUser.emails id email hEmail
  accounts k a hGet := by rw [get_account_insert, hGet, Option.some_or]
  owners k a hNone hSome := by
    rw [get_account_insert, hNone, Option.none_or] at hSome
    split at hSome
    · cases hSome
      exact hUser
    · cases hSome

theorem Logs.later (h : Logs l e) : Later e.before e.after := by
  cases h with
  | failed _ hAfter _ => exact hAfter ▸ .refl _
  | known _ hAfter _ _ _ => exact hAfter ▸ .refl _
  | looked _ hAfter _ _ => exact hAfter ▸ .refl _
  | started _ _ _ _ hUsers hAccounts _ => exact later_of_eq hUsers hAccounts
  | created _ _ _ hUser _ _ hAfter => exact hAfter ▸ later_created hUser

theorem Legal.later (h : Legal services e) : Later e.before e.after := by
  obtain ⟨l, _, hLogs⟩ | ⟨_, hKept | ⟨_, _, _, hKept⟩⟩ := h
  · exact hLogs.later
  · exact hKept.later
  · exact later_insertUser.trans hKept.later

theorem profile_of_loginOf {call : AccountCall} (h : loginOf services call = some l) :
    ∃ text, l.profile.email = services.normalizeEmail text := by
  cases call with
  | googleLogin payload consent metadata user session rememberMe =>
    cases h
    exact ⟨payload.email, rfl⟩
  | _ => cases h

theorem consistent_created {db : Database} (h : Consistent services db) {text : String}
    (hNormal : l.profile.email = services.normalizeEmail text)
    (hFree : ∀ id, emailOf db id ≠ some l.profile.email) (hUser : emailOf db l.user.id = none) :
    Consistent services ((db.insertUser l.newUser).insertAccount l.newAccount) := by
  have hInserted : Consistent services (db.insertUser l.newUser) := h.insertUser hNormal hFree
  refine ⟨hInserted.unique, hInserted.normalised, fun k a hGet => ?_⟩
  rw [get_account_insert] at hGet
  rcases Option.or_eq_some_iff.mp hGet with hOld | ⟨_, hNew⟩
  · exact hInserted.owned k a hOld
  · split at hNew
    · cases hNew
      refine ⟨l.profile.email, (emailOf_insertUser (u := l.newUser)).trans ?_⟩
      rw [show emailOf db l.newAccount.userId = none from hUser, Option.none_or]
      exact if_pos rfl
    · cases hNew

theorem consistent_of_eq {db db' : Database} (h : Consistent services db)
    (hUsers : db'.users = db.users) (hAccounts : db'.accounts = db.accounts) :
    Consistent services db' where
  unique id id' email hEmail hEmail' :=
    h.unique id id' email (by rwa [← emailOf_congr hUsers]) (by rwa [← emailOf_congr hUsers])
  normalised id email hEmail := h.normalised id email (by rwa [← emailOf_congr hUsers])
  owned k a hGet := by
    rw [hAccounts] at hGet
    obtain ⟨email, hEmail⟩ := h.owned k a hGet
    exact ⟨email, (emailOf_congr hUsers _).trans hEmail⟩

theorem Consistent.step (h : Consistent services e.before) (hLegal : Legal services e) :
    Consistent services e.after := by
  obtain ⟨l, hCall, hLogs⟩ | ⟨_, hKept | ⟨hNormal, _, hFree, hKept⟩⟩ := hLegal
  · cases hLogs with
    | failed _ hAfter _ => exact hAfter ▸ h
    | known _ hAfter _ _ _ => exact hAfter ▸ h
    | looked _ hAfter _ _ => exact hAfter ▸ h
    | started _ _ _ _ hUsers hAccounts _ => exact consistent_of_eq h hUsers hAccounts
    | created _ _ _ hUser hFree _ hAfter =>
      obtain ⟨text, hNormal⟩ := profile_of_loginOf hCall
      exact hAfter ▸ consistent_created h hNormal hFree hUser
  · exact h.kept hKept
  · exact (h.insertUser hNormal hFree).kept hKept

theorem consistent_empty : Consistent services emptyDatabase := by
  constructor <;> intros <;> contradiction

theorem consistent_of_path {es : List AccountEntry} {db db' : Database} {t t' : Nat}
    (h : Path (Legal services) db t es db' t') (hStart : Consistent services db) :
    Consistent services db' :=
  h.preserves (P := fun (db : Database) _ => Consistent services db) (fun _ _ _ _ hSame => hSame)
    (fun _ _ hLegal hHere => hHere.step hLegal) hStart

theorem Sound.consistent (h : (ledger services).Sound s) : Consistent services s.db :=
  consistent_of_path h.1 consistent_empty

theorem later_of_path {es : List AccountEntry} {db db' : Database} {t t' : Nat}
    (h : Path (Legal services) db t es db' t') :
    Later db db' :=
  h.preserves (P := fun (db' : Database) _ => Later db db') (fun _ _ _ _ hSame => hSame)
    (fun _ _ hLegal hHere => hHere.trans hLegal.later) (.refl db)

/-! ## What a lock holder relies on -/

section Rely

variable (h : (discipline services).Rely held s s')

include h

theorem rely_later : Later s.db s'.db :=
  Ledger.rely_preserves h (P := fun (db : Database) _ => Later s.db db) (fun _ _ _ _ hSame => hSame)
    (fun _ hLegal _ _ hHere => hHere.trans hLegal.later) (.refl s.db)

theorem rely_user {id : Nat} (hHeld : held (.user id))
    (hNone : emailOf s.db id = none) : emailOf s'.db id = none :=
  Ledger.rely_preserves h (P := fun (db : Database) _ => emailOf db id = none)
    (fun _ _ _ _ hSame => hSame)
    (fun _ _ _ hRespects hHere => hRespects _ hHeld hHere) hNone

theorem rely_email {email : String} (hHeld : held (.userEmail email))
    (hFree : ∀ id, emailOf s.db id ≠ some email) :
    ∀ id, emailOf s'.db id ≠ some email :=
  Ledger.rely_preserves h (P := fun (db : Database) _ => ∀ id,
    emailOf db id ≠ some email) (fun _ _ _ _ hSame => hSame)
    (fun _ _ _ hRespects hHere => hRespects _ hHeld hHere) hFree

theorem rely_account {k : String × String} (hHeld : held (.account k.1 k.2))
    (hNone : s.db.accounts.get k = none) :
    s'.db.accounts.get k = none :=
  Ledger.rely_preserves h (P := fun (db : Database) _ => db.accounts.get k = none)
    (fun _ _ _ _ hSame => hSame)
    (fun _ _ _ hRespects hHere => hRespects _ hHeld hHere) hNone

end Rely

/-! ## What an entry owes -/

theorem guarantee_legal (hSound : (ledger services).Sound s) (hBefore : e.before = s.db)
    (hEnded : e.endedAt = s.now) (hLegal : Legal services e)
    (hRespects : ∀ r, ¬ held r → Respects r e) :
    (discipline services).Guarantee held s (s.record e) :=
  Ledger.guarantee_record hSound hBefore hEnded hLegal trivial hRespects
    (fun _ _ => trivial) fun _ _ _ => trivial

theorem respects_of_eq (hEmails : ∀ id, emailOf e.after id = emailOf e.before id)
    (hAccounts : e.after.accounts = e.before.accounts) (r : Resource) : Respects r e := by
  cases r with
  | user id => exact fun hNone => (hEmails id).trans hNone
  | userEmail email =>
    intro hFree id
    rw [hEmails]
    exact hFree id
  | account provider providerAccountId =>
    intro hNone
    rw [hAccounts]
    exact hNone
  | _ => trivial

theorem guarantee_same (hSound : (ledger services).Sound s) (hBefore : e.before = s.db)
    (hEnded : e.endedAt = s.now) (hAfter : e.after = e.before) (hLegal : Legal services e) :
    (discipline services).Guarantee held s (s.record e) :=
  guarantee_legal hSound hBefore hEnded hLegal fun r _ =>
    respects_of_eq (fun _ => by rw [hAfter]) (by rw [hAfter]) r

variable {call : AccountCall} {loc : Local auth} {tx : LocalTx auth} {error : Failure}

theorem undoable_login (hSound : (ledger services).Sound s) (hCall : loginOf services call = some l)
    (hFailed : Failed l (s.entry call tx.startedAt tx.reads tx.answers loc.replies
      (some error) s.db) error) :
    Undoable (discipline services) call loc tx error s :=
  fun _ =>
    ⟨guarantee_same hSound rfl rfl rfl (.inl ⟨l, hCall, .failed rfl rfl hFailed⟩),
    fun _ _ => trivial⟩

theorem undoable_other (hSound : (ledger services).Sound s) (hCall : loginOf services call = none) :
    Undoable (discipline services) call loc tx error s :=
  fun _ => ⟨guarantee_same hSound rfl rfl rfl (.inr ⟨hCall, .kept (.refl _)⟩), fun _ _ => trivial⟩

theorem safe_any : Safe (discipline services) call loc s := by
  intro s' hRely tx _
  cases hCall : loginOf services call with
  | none => exact undoable_other hRely.inv hCall
  | some l => exact undoable_login hRely.inv hCall .rolledBack

end Pixaeron.Auth.Google
