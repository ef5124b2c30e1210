import Pixaeron.Transactions.Endings
import Pixaeron.Auth.Verified.GoogleAccounts

/-! # Google sign-in and the owners of accounts

A login goes on with the user whose account it has found, put in, or found after a unique constraint
has failed. It is turned away for its e-mail address only if that belongs to another user, as long
as the account has not been committed between its two lookups. -/

namespace Pixaeron.Auth.Google

open Transactions Transactions.Script

variable {services : Services} {call : AccountCall} {s : Shared auth AccountCall} {l : Login}
  {past : List AccountEntry}
  {e : AccountEntry} {userId : Nat}

/-! ## What logins return -/

/-- The entries of a login up to the creation of its session, and the user whose session it is. -/
inductive Determined (l : Login) : List AccountEntry → Nat → Prop
  | found {e : AccountEntry} {db : Database} {a : Account} : e.error = none →
      e.reads = [(.findAccount, db)] →
    db.accounts.get l.key = some a → Determined l [e] a.userId
  | created {e : AccountEntry} {db : Database}
      {more : List (Statement × Database)} : e.error = none →
    e.reads = (.findAccount, db) :: more → db.accounts.get l.key = none → Determined l [e] l.user.id
  | recovered {e e' : AccountEntry} {db : Database} {a : Account} : e'.error = none →
    e'.reads = [(.findCommittedAccount, db)] → db.accounts.get l.key = some a →
      Determined l [e, e'] a.userId

structure Started (l : Login) (past : List AccountEntry) (e : AccountEntry)
    (signedIn : SignedIn) : Prop where
  error : e.error = none
  user : ∃ userId db more u, Determined l past userId ∧ e.reads = (.findUser, db) :: more ∧
    db.users.get userId = some u ∧ signedIn.user = some u

/-- A login has come to an error: of its first transaction, of the lookups after a unique constraint
has failed, or of the creation of its session. -/
inductive Stopped (l : Login) (past : List AccountEntry) (e : AccountEntry) (error : Failure) : Prop
  | failed : e.error = some error →
      error = .rolledBack ∨ error = .accountLinkRequired ∨ error = .legalConsentRequired →
    Stopped l past e error
  | conflict {e₀ e₁ : AccountEntry} {db db' : Database} {target : String} : past = [e₀, e₁] →
    e₀.error = some (.uniqueConstraint target) → target = "User" ∨ target = "Account" →
      e₁.error = none →
    e₁.reads = [(.findCommittedAccount, db)] → db.accounts.get l.key = none → e.error = none →
    e.reads = [(.findCommittedUser, db')] →
      error = .accountLinkRequired ∨ db'.userByEmail l.profile.email = none →
    Stopped l past e error
  | session : e.error = some error → error = .rolledBack ∨ error = .unauthorized ∨
    error = .uniqueConstraint "Session" ∨ error = .uniqueConstraint "SessionRefreshToken" →
      Stopped l past e error

/-- What is left of a login is the creation of its session. -/
def CreatesSession (services : Services) (call : AccountCall) (userId : Nat)
    (p : Script auth AccountOutcome) : Prop :=
  ∃ payload consent metadata user session rememberMe,
    call = .googleLogin payload consent metadata user session rememberMe ∧
      p = (createSession services userId metadata session rememberMe none).bind fun a =>
        .done (.signedIn a)

def loginEndings (services : Services) (call : AccountCall) :
    Endings auth AccountCall AccountOutcome where
  Result past e outcome := ∀ l, loginOf services call = some l →
    (∃ signedIn, outcome = .signedIn (.ok signedIn) ∧ Started l past e signedIn) ∨
    ∃ error, outcome = .signedIn (.error error) ∧ Stopped l past e error
  Rest _ e p := ∀ l, loginOf services call = some l → ∀ db more,
    e.error = none → e.reads = (.findAccount, db) :: more →
    db.accounts.get l.key = none → CreatesSession services call l.user.id p
  Refused _ outcome :=
    ∀ l, loginOf services call = some l → outcome = .signedIn (.error .googleTokenInvalid) ∨
    (outcome = .signedIn (.error .googleEmailNotVerified) ∧ l.profile.emailVerified = false)

section Ends

variable {payload : GoogleTokenPayload} {consent : LegalConsent} {metadata : SessionRequestMetadata}
  {user : DrawnUser}
  {session : DrawnSession} {rememberMe : Bool}

theorem ends_createSession
    (hCall : call = .googleLogin payload consent metadata user session rememberMe)
    (h : Determined ⟨profileOf services payload, consent, user⟩ past userId) :
    ((createSession services userId metadata session rememberMe none).bind fun a => .done
      (.signedIn a)).Ends
      (loginEndings services call) past none := by
  subst hCall
  refine fun now =>
    ⟨fun error e hError hMay => .inl ⟨_, rfl, fun l hl => .inr ⟨error, rfl, .session hError ?_⟩⟩,
    fun v => ?_⟩
  · rcases hMay with rfl | hMay
    · exact .inl rfl
    obtain ⟨v, hMay⟩ := hMay
    dsimp only [bind_done, bind_eq, pure_eq] at hMay
    split at hMay
    · exact .inr (.inl hMay.symm)
    obtain ⟨v', hMay⟩ := hMay
    dsimp only [bind_done, bind_eq, pure_eq, require] at hMay
    split at hMay
    swap
    · exact .inr (.inr (.inl hMay.symm))
    obtain ⟨v'', hMay⟩ := hMay
    dsimp only [bind_done, bind_eq, pure_eq, require] at hMay
    split at hMay
    · exact hMay.elim
    · exact .inr (.inr (.inr hMay.symm))
  · dsimp only [bind_done, bind_eq, pure_eq]
    split
    · trivial
    next u hUser =>
    intro v'
    dsimp only [bind_done, bind_eq, pure_eq, require]
    split
    swap
    · trivial
    intro v''
    dsimp only [bind_done, bind_eq, pure_eq, require]
    split
    swap
    · trivial
    refine fun e hReads hError =>
      .inl ⟨_, rfl, fun l hl => .inl ⟨_, rfl, hError, userId, v.db, _, u, ?_, hReads, hUser, rfl⟩⟩
    cases hl
    exact h

theorem raised_by_findOrCreateUser {profile : GoogleUserProfile} {β : Type}
    {k : Nat → Script auth β} {error : Failure} (hLast : ∀ userId, ¬ (k userId).MayFail error)
    (h : ((findOrCreateUser profile consent user).bind k).MayFail error) :
    error = .rolledBack ∨ error = .accountLinkRequired ∨ error = .legalConsentRequired ∨
      ∃ target, error = .uniqueConstraint target ∧ (target = "User" ∨ target = "Account") := by
  obtain ⟨v, h⟩ := h
  dsimp only [bind_done, bind_eq, pure_eq] at h
  split at h
  · exact absurd h (hLast _)
  obtain ⟨v', h⟩ := h
  dsimp only [bind_done, bind_eq, pure_eq, require] at h
  split at h
  swap
  · exact .inr (.inl h.symm)
  dsimp only [bind_done] at h
  split at h
  swap
  · exact .inr (.inr (.inl h.symm))
  obtain ⟨v₃, h⟩ := h
  dsimp only [bind_done, bind_eq, pure_eq] at h
  split at h
  swap
  · next error' hClash =>
    obtain rfl : error' = error := h
    unfold Database.userClash at hClash
    split at hClash
    · cases hClash
      exact .inl rfl
    split at hClash
    · cases hClash
      exact .inr (.inr (.inr ⟨_, rfl, .inl rfl⟩))
    · cases hClash
  obtain ⟨v₄, h⟩ := h
  dsimp only [bind_done, bind_eq, pure_eq, require] at h
  split at h
  · exact absurd h (hLast _)
  · exact .inr (.inr (.inr ⟨_, h.symm, .inr rfl⟩))

/-- What a login does with the user it has found. -/
structure GoesOn (services : Services) (metadata : SessionRequestMetadata) (session : DrawnSession)
    (rememberMe : Bool) (k : Except Failure Nat → Script auth AccountOutcome) : Prop where
  refused : ∀ error, k (.error error) = .done (.signedIn (.error error))
  ok : ∀ userId, k (.ok userId) =
    (createSession services userId metadata session rememberMe none).bind fun a =>
      .done (.signedIn a)

theorem ends_findCommittedUser
    (hCall : call = .googleLogin payload consent metadata user session rememberMe)
    {e₀ : AccountEntry} {target : String} (hError : e₀.error = some (.uniqueConstraint target))
    (hTarget : target = "User" ∨ target = "Account")
    {k : Except Failure Nat → Script auth AccountOutcome}
    (hGoes : GoesOn services metadata session rememberMe k) :
    ((findCommittedUser (profileOf services payload) (.uniqueConstraint target)).bind k).Ends
      (loginEndings services call) [e₀] none := by
  intro v e₁ hReads₁ hError₁
  dsimp only [bind_done, bind_eq, pure_eq]
  split
  · next account hAccount =>
    refine .inr ⟨(fun l hl db more _ hReads => by cases hReads₁.symm.trans hReads), ?_⟩
    rw [bind_done, hGoes.ok]
    exact ends_createSession hCall (.recovered hError₁ hReads₁ hAccount)
  next hNone =>
  refine .inr ⟨(fun l hl db more _ hReads => by cases hReads₁.symm.trans hReads),
    fun v' e₂ hReads₂ hError₂ => ?_⟩
  dsimp only [bind_done, bind_eq, pure_eq]
  split
  · refine .inl ⟨_, hGoes.refused _, fun l hl => .inr ⟨_, rfl, ?_⟩⟩
    subst hCall
    cases hl
    exact .conflict rfl hError hTarget hError₁ hReads₁ hNone hError₂ hReads₂ (.inl rfl)
  · next hNobody =>
    refine .inl ⟨_, hGoes.refused _, fun l hl => .inr ⟨_, rfl, ?_⟩⟩
    subst hCall
    cases hl
    exact .conflict rfl hError hTarget hError₁ hReads₁ hNone hError₂ hReads₂
      (.inr (Option.not_isSome_iff_eq_none.mp hNobody))

theorem ends_googleUser
    (hCall : call = .googleLogin payload consent metadata user session rememberMe)
    {k : Except Failure Nat → Script auth AccountOutcome}
    (hGoes : GoesOn services metadata session rememberMe k) :
    ((googleUser (profileOf services payload) consent user).bind k).Ends
      (loginEndings services call) [] none := by
  refine ⟨fun error e hError hMay => ?_, fun v => ?_⟩
  · have hRaised : error = .rolledBack ∨ error = .accountLinkRequired ∨
      error = .legalConsentRequired ∨
        ∃ target, error = .uniqueConstraint target ∧ (target = "User" ∨ target = "Account") := by
      rcases hMay with rfl | hMay
      · exact .inl rfl
      · rw [bind_eq, bind_assoc, bind_assoc] at hMay
        refine raised_by_findOrCreateUser ?_ hMay
        exact fun userId h => h
    have hStops (hPlain : error = .rolledBack ∨ error = .accountLinkRequired ∨
      error = .legalConsentRequired) :
        (loginEndings services call).Follows [] e ((refuse error).bind k)
          ((k (.error error)).Ends (loginEndings services call) [e] none) :=
      .inl ⟨_, hGoes.refused error, fun l hl => .inr ⟨error, rfl, .failed hError hPlain⟩⟩
    rcases hRaised with rfl | rfl | rfl | ⟨target, rfl, hTarget⟩
    · exact hStops (.inl rfl)
    · exact hStops (.inr (.inl rfl))
    · exact hStops (.inr (.inr rfl))
    · refine .inr ⟨(fun l hl db more hNone => by cases hError.symm.trans hNone), ?_⟩
      exact ends_findCommittedUser hCall hError hTarget hGoes
  · dsimp only [bind_done, bind_eq, pure_eq]
    split
    · next account hAccount =>
      refine fun e hReads hError => .inr ⟨fun l hl db more _ hReads' hNone => ?_, ?_⟩
      · subst hCall
        cases hl
        cases hReads.symm.trans hReads'
        cases hAccount.symm.trans hNone
      · rw [bind_done, hGoes.ok]
        exact ends_createSession hCall (.found hError hReads hAccount)
    next hNoAccount =>
    intro v'
    dsimp only [bind_done, bind_eq, pure_eq, require]
    split
    swap
    · trivial
    dsimp only [bind_done]
    split
    swap
    · trivial
    intro v₃
    dsimp only [bind_done, bind_eq, pure_eq]
    split
    swap
    · trivial
    intro v₄
    dsimp only [bind_done, bind_eq, pure_eq, require]
    split
    swap
    · trivial
    refine fun e hReads hError => .inr ⟨fun l hl db more _ _ _ => ?_, ?_⟩
    · subst hCall
      cases hl
      exact ⟨payload, consent, metadata, user, session, rememberMe, rfl,
        by rw [bind_done, hGoes.ok]⟩
    · rw [bind_done, hGoes.ok]
      exact ends_createSession hCall (.created hError hReads hNoAccount)

theorem ends_googleLogin
    (hCall : call = .googleLogin payload consent metadata user session rememberMe) :
    ((googleLogin services payload consent metadata user session rememberMe).bind fun a => .done
      (.signedIn a)).Ends
      (loginEndings services call) [] none := by
  unfold googleLogin
  split
  · next error hInvalid =>
    intro l hl
    unfold verifyIdToken at hInvalid
    split at hInvalid
    · cases hInvalid
      exact .inl rfl
    · cases hInvalid
  next profile hVerified =>
  obtain rfl := profile_of_verified hVerified
  split
  · next hUnverified =>
    intro l hl
    subst hCall
    cases hl
    exact .inr ⟨rfl, hUnverified⟩
  · rw [bind_eq, bind_assoc]
    exact ends_googleUser hCall ⟨fun error => rfl, fun userId => rfl⟩

end Ends

theorem ends_accounts (call : AccountCall) (s : Shared auth AccountCall) (ext : Unit)
    (script : Script auth AccountOutcome) (hCall : loginOf services call ≠ none)
    (hProgram : accountSystem services call s = some (ext, script)) :
    script.Ends (loginEndings services call) [] none := by
  cases hProgram
  cases call with
  | googleLogin payload consent metadata user session rememberMe => exact ends_googleLogin rfl
  | _ => exact absurd rfl hCall

/-! ## What logins leave behind -/

theorem Sound.logs (h : (ledger services).Sound s) (he : e ∈ s.history)
    (hCall : loginOf services e.call = some l) : Logs l e := by
  rcases h.1.legal e he with ⟨l', hCall', hLogs⟩ | ⟨hNone, _⟩
  · cases hCall.symm.trans hCall'
    exact hLogs
  · cases hCall.symm.trans hNone

theorem Logs.of_error {error : Failure} (h : Logs l e) (hError : e.error = some error) :
    Failed l e error ∧ e.after = e.before := by
  cases h with
  | failed hFailed hAfter hWhy =>
    cases hError.symm.trans hFailed
    exact ⟨hWhy, hAfter⟩
  | known hNone => cases hError.symm.trans hNone
  | created hNone => cases hError.symm.trans hNone
  | looked hNone => cases hError.symm.trans hNone
  | started hNone => cases hError.symm.trans hNone

theorem Logs.of_lookup {name : Statement} {db : Database} (h : Logs l e) (hError : e.error = none)
    (hReads : e.reads = [(name, db)])
    (hName : name = .findCommittedAccount ∨ name = .findCommittedUser) :
    e.before = db ∧ e.after = e.before := by
  cases h with
  | failed hFailed => cases hError.symm.trans hFailed
  | known _ _ hReads' =>
    cases hReads.symm.trans hReads'
    rcases hName with hName | hName <;> cases hName
  | created _ hReads' =>
    cases hReads.symm.trans hReads'
    rcases hName with hName | hName <;> cases hName
  | looked _ hAfter hReads' =>
    cases hReads.symm.trans hReads'
    exact ⟨rfl, hAfter⟩
  | started _ hReads' =>
    cases hReads.symm.trans hReads'
    rcases hName with hName | hName <;> cases hName

theorem Sound.later (h : (ledger services).Sound s) (he : e ∈ s.history) : Later e.after s.db := by
  obtain ⟨first, rest, hSplit⟩ := List.append_of_mem he
  have hPath := h.1
  rw [hSplit] at hPath
  exact later_of_path hPath.around.2.2

theorem Sound.later_between {e' : AccountEntry} (h : (ledger services).Sound s)
    (hBoth : [e, e'].Sublist s.history) :
    Later e.after e'.before := by
  obtain ⟨_, _, _, _, _, ⟨_, hMiddle⟩, _⟩ := h.1.between hBoth
  exact later_of_path hMiddle

theorem Determined.owner (h : Determined l past userId) (hSound : (ledger services).Sound s)
    (hPast : ∀ e ∈ past, e ∈ s.history) (hCall : ∀ e ∈ past, loginOf services e.call = some l) :
    Owner l userId s.db := by
  cases h with
  | @found e db a hError hReads hGet =>
    have he := hPast e List.mem_cons_self
    cases Sound.logs hSound he (hCall e List.mem_cons_self) with
    | failed hFailed => cases hError.symm.trans hFailed
    | @known db' a' _ hAfter hReads' hGet' hBefore =>
      cases hReads.symm.trans hReads'
      cases hGet.symm.trans hGet'
      exact ⟨a, (Sound.later hSound he).accounts _ _ (hAfter ▸ hBefore), rfl⟩
    | created _ hReads' hNone =>
      cases hReads.symm.trans hReads'
      cases hGet.symm.trans hNone
    | looked _ _ hReads' hName =>
      cases hReads.symm.trans hReads'
      rcases hName with hName | hName <;> cases hName
    | started _ hReads' => cases hReads.symm.trans hReads'
  | @created e db more hError hReads hNone =>
    have he := hPast e List.mem_cons_self
    cases Sound.logs hSound he (hCall e List.mem_cons_self) with
    | failed hFailed => cases hError.symm.trans hFailed
    | known _ _ hReads' hGet' =>
      cases hReads.symm.trans hReads'
      cases hNone.symm.trans hGet'
    | created _ _ _ _ _ hAccount hAfter =>
      exact (hAfter ▸ owner_created hAccount : Owner l l.user.id e.after).later
        (Sound.later hSound he)
    | looked _ _ hReads' hName =>
      cases hReads.symm.trans hReads'
      rcases hName with hName | hName <;> cases hName
    | started _ hReads' => cases hReads.symm.trans hReads'
  | @recovered e e' db a hError hReads hGet =>
    have he : e' ∈ [e, e'] := List.mem_cons_of_mem _ List.mem_cons_self
    obtain ⟨rfl, hAfter⟩ :=
      (Sound.logs hSound (hPast e' he) (hCall e' he)).of_lookup hError hReads (.inl rfl)
    exact ⟨a, (Sound.later hSound (hPast e' he)).accounts _ _ (hAfter ▸ hGet), rfl⟩

/-- No account of this login has been committed for the user of its e-mail address. -/
def Unowned (l : Login) (db : Database) : Prop :=
  ∀ a, db.accounts.get l.key = some a → emailOf db a.userId ≠ some l.profile.email

/-- Between the two lookups of a login's first transaction no account has been committed to the user
whom the second one finds. -/
def Undisturbed (services : Services) (e : AccountEntry) : Prop :=
  ∀ l db db' more, loginOf services e.call = some l →
    e.reads = (.findAccount, db) :: (.findUserByEmail, db') :: more →
    db.accounts.get l.key = none → Unowned l db'

/-- Why a login may be refused. -/
inductive Refused (l : Login) (db : Database) : Failure → Prop
  | tokenInvalid : Refused l db .googleTokenInvalid
  | emailNotVerified : l.profile.emailVerified = false → Refused l db .googleEmailNotVerified
  | consentRequired : ¬ l.consent.isCurrent → Refused l db .legalConsentRequired
  | linkRequired : (∃ id, emailOf db id = some l.profile.email) → Unowned l db →
      Refused l db .accountLinkRequired
  | rolledBack : Refused l db .rolledBack
  | sessionClash {target : String} : target = "Session" ∨ target = "SessionRefreshToken" →
      Refused l db (.uniqueConstraint target)

/-- An address that belonged to a user when the account was still missing: the account is not that
user's. -/
theorem unowned_of_before {db db' : Database} {id : Nat} (hConsistent : Consistent services db')
    (hLater : Later db db') (hEmail : emailOf db id = some l.profile.email)
    (hNone : db.accounts.get l.key = none) : Unowned l db' := by
  intro a hGet hOwner
  have hSame : a.userId = id := hConsistent.unique _ _ _ hOwner (hLater.emails _ _ hEmail)
  have hNew := hLater.owners _ a hNone hGet
  rw [hSame] at hNew
  cases hNew.symm.trans hEmail

theorem Unowned.later {db db' : Database} {id : Nat} (h : Unowned l db)
    (hConsistent : Consistent services db') (hLater : Later db db')
    (hEmail : emailOf db id = some l.profile.email) : Unowned l db' := by
  cases hAccount : db.accounts.get l.key with
  | none => exact unowned_of_before hConsistent hLater hEmail hAccount
  | some a =>
    intro a' hGet hOwner
    cases (hLater.accounts _ _ hAccount).symm.trans hGet
    have hSame : a.userId = id := hConsistent.unique _ _ _ hOwner (hLater.emails _ _ hEmail)
    exact h a hAccount (hSame ▸ hEmail)

theorem Stopped.refused {error : Failure} (h : Stopped l past e error)
    (hSound : (ledger services).Sound s) (hPast : (past ++ [e]).Sublist s.history)
    (hCall : ∀ e' ∈ past ++ [e], loginOf services e'.call = some l) (hNow : e.after = s.db)
    (hUndisturbed : Undisturbed services e) : Refused l s.db error := by
  have hMem {e' : AccountEntry} (he : e' ∈ past ++ [e]) : Logs l e' :=
    Sound.logs hSound (hPast.subset he) (hCall e' he)
  have hSelf : e ∈ past ++ [e] := List.mem_append_right _ (List.mem_singleton_self e)
  have hConsistent := Sound.consistent hSound
  cases h with
  | failed hError hPlain =>
    obtain ⟨hFailed, hAfter⟩ := (hMem hSelf).of_error hError
    cases hFailed with
    | rolledBack => exact .rolledBack
    | consent hConsent => exact .consentRequired hConsent
    | @linked db db' u hReads hNone hUser hLater =>
      have hLater' : Later db' s.db := by
        rw [← hNow, hAfter]
        exact hLater
      have hEmail := emailOf_of_userByEmail hUser
      exact .linkRequired ⟨_, hLater'.emails _ _ hEmail⟩
        ((hUndisturbed l db db' [] (hCall e hSelf) hReads hNone).later hConsistent hLater' hEmail)
    | taken _ _ => rcases hPlain with hPlain | hPlain | hPlain <;> cases hPlain
    | session _ => rcases hPlain with hPlain | hPlain | hPlain <;> cases hPlain
  | @conflict e₀ e₁ db db' target hSplit hError₀ hTarget hError₁ hReads₁ hNone hError hReads hEnd =>
    subst hSplit
    have hMem₀ : e₀ ∈ [e₀, e₁] ++ [e] := List.mem_cons_self
    have hMem₁ : e₁ ∈ [e₀, e₁] ++ [e] := List.mem_cons_of_mem _ List.mem_cons_self
    obtain ⟨rfl, hAfter₁⟩ := (hMem hMem₁).of_lookup hError₁ hReads₁ (.inl rfl)
    obtain ⟨rfl, hAfter⟩ := (hMem hSelf).of_lookup hError hReads (.inr rfl)
    have hFirst : Later e₀.before e₁.before :=
      (hMem hMem₀).later.trans (Sound.later_between hSound
        ((List.sublist_append_left [e₀, e₁] [e]).trans hPast))
    have hSecond : Later e₁.before s.db := by
      rw [← hAfter₁]
      exact Sound.later hSound (hPast.subset hMem₁)
    -- a constraint has failed, and not for the account: the address has been taken before
    obtain ⟨id, hEmail⟩ : ∃ id, emailOf e₁.before id = some l.profile.email := by
      cases ((hMem hMem₀).of_error hError₀).1 with
      | taken _ hTaken =>
        rcases hTaken with ⟨id, hEmail⟩ | ⟨a, hAccount⟩
        · exact ⟨id, hFirst.emails _ _ hEmail⟩
        · cases (hFirst.accounts _ _ hAccount).symm.trans hNone
      | session hOther => rcases hTarget with rfl | rfl <;> simp at hOther
    rcases hEnd with rfl | hNobody
    · exact .linkRequired ⟨id, hSecond.emails _ _ hEmail⟩
        (unowned_of_before hConsistent hSecond hEmail hNone)
    · have hHere := hSecond.emails _ _ hEmail
      rw [← hNow, hAfter] at hHere
      exact absurd hHere (userByEmail_eq_none.mp hNobody id)
  | session hError hKind =>
    rcases hKind with rfl | rfl | rfl | rfl
    · exact .rolledBack
    · cases ((hMem hSelf).of_error hError).1
    · exact .sessionClash (.inl rfl)
    · exact .sessionClash (.inr rfl)

/-! ## Runs -/

/-- Every address is normalised and belongs to one user, and every identity to one account. -/
structure OneEach (services : Services) (db : Database) : Prop where
  normalised : ∀ u ∈ db.users.rows, ∃ text, u.email = services.normalizeEmail text
  users : ∀ u ∈ db.users.rows, ∀ u' ∈ db.users.rows, u.email = u'.email → u = u'
  accounts : ∀ a ∈ db.accounts.rows, ∀ a' ∈ db.accounts.rows, a.provider = a'.provider →
    a.providerAccountId = a'.providerAccountId → a = a'

theorem Consistent.oneEach {db : Database} (h : Consistent services db) : OneEach services db where
  normalised u hu :=
    h.normalised u.id u.email (by rw [emailOf, Table.get_of_mem hu, Option.map_some])
  users u hu u' hu' hSame := by
    have hGet := Table.get_of_mem hu
    have hGet' := Table.get_of_mem hu'
    have hId : u.id = u'.id := h.unique _ _ u.email (by rw [emailOf, hGet, Option.map_some])
      (by rw [emailOf, hGet', Option.map_some, hSame])
    rw [hId] at hGet
    exact Option.some.inj (hGet.symm.trans hGet')
  accounts a ha a' ha' hProvider hId := by
    have hGet := Table.get_of_mem ha
    rw [show a.key = a'.key from Prod.ext hProvider hId] at hGet
    exact Option.some.inj (hGet.symm.trans (Table.get_of_mem ha'))

theorem Logs.owner {id : String} {started : Session} (h : Logs l e)
    (hNew : e.before.sessions.get id = none) (hStarted : e.after.sessions.get id = some started) :
    Owner l started.userId e.before := by
  cases h with
  | failed _ hAfter =>
    rw [hAfter] at hStarted
    cases hNew.symm.trans hStarted
  | known _ hAfter =>
    rw [hAfter] at hStarted
    cases hNew.symm.trans hStarted
  | looked _ hAfter =>
    rw [hAfter] at hStarted
    cases hNew.symm.trans hStarted
  | created _ _ _ _ _ _ hAfter =>
    rw [hAfter] at hStarted
    cases hNew.symm.trans hStarted
  | started _ _ hAccount hUser _ _ hSessions =>
    rw [hSessions, Table.get_insert, hNew, Option.none_or] at hStarted
    split at hStarted
    · cases hStarted
      exact ⟨_, hAccount, hUser.symm⟩
    · cases hStarted

theorem Logs.same_or_created (h : Logs l e) :
    (e.after.users = e.before.users ∧ e.after.accounts = e.before.accounts) ∨
    ∃ db more, e.error = none ∧ e.reads = (.findAccount, db) :: more ∧
      db.accounts.get l.key = none := by
  cases h with
  | failed _ hAfter => exact .inl (by rw [hAfter]; exact ⟨rfl, rfl⟩)
  | known _ hAfter => exact .inl (by rw [hAfter]; exact ⟨rfl, rfl⟩)
  | looked _ hAfter => exact .inl (by rw [hAfter]; exact ⟨rfl, rfl⟩)
  | created hError hReads hNone => exact .inr ⟨_, _, hError, hReads, hNone⟩
  | started _ _ _ _ hUsers hAccounts => exact .inl ⟨hUsers, hAccounts⟩

section Runs

variable {now : Nat} {w w' : World auth AccountCall AccountOutcome}
  {action : Action auth AccountCall} {sid : Nat}

/-- In this world the login has its user and is about to create the session. -/
def AtSessionCreation (services : Services) (w : World auth AccountCall AccountOutcome) (sid : Nat)
    (call : AccountCall) (userId : Nat) : Prop :=
  ∃ session, w.sessions sid = some session ∧ session.tx = none ∧
    CreatesSession services call userId session.script

/-- A login that has ended its step without coming to the creation of its session has put nothing
in. -/
theorem put_in_of_step (h : World.Leads (accountSystem services) (accountStart now) w)
    (hStep : World.step (accountSystem services) w action = some w')
    (hActor : World.Action.actor action = some sid) (hPlays : World.Plays w w' sid call)
    (hCall : loginOf services call = some l) :
    (w'.shared.db.users = w.shared.db.users ∧ w'.shared.db.accounts = w.shared.db.accounts) ∨
      AtSessionCreation services w' sid call l.user.id := by
  obtain ⟨past, _, hEnding⟩ :=
    World.ending_of_step (fun call => loginOf services call ≠ none)
      (loginEndings services) ends_accounts
    (fun _ => rfl) h hStep hActor hPlays (by simp [hCall])
  rcases hEnding with ⟨_, hDb, _⟩ | ⟨e, hOf, hHistory, hBefore, hAfter,
    ⟨_, hDb⟩ | ⟨session, hSession, hTx, hFollows⟩⟩
  · exact .inl (by rw [hDb]; exact ⟨rfl, rfl⟩)
  · exact .inl (by rw [hDb]; exact ⟨rfl, rfl⟩)
  have hSound := sound_of_run (h.tail ⟨action, hStep⟩)
  have hLogs : Logs l e := Sound.logs hSound (by simp [hHistory]) (hOf ▸ hCall)
  rw [← hBefore, ← hAfter]
  refine hLogs.same_or_created.imp_right ?_
  rintro ⟨db, more, hError, hReads, hNone⟩
  rcases hFollows with ⟨outcome, _, hResult⟩ | ⟨hRest, _⟩
  · rcases hResult l hCall with ⟨_, _, hStarted⟩ | ⟨error, _, hStopped⟩
    · obtain ⟨_, _, _, _, _, hReads', _⟩ := hStarted.user
      cases hReads.symm.trans hReads'
    · cases hStopped with
      | failed hFailed => cases hError.symm.trans hFailed
      | conflict _ _ _ _ _ _ _ hReads' => cases hReads.symm.trans hReads'
      | session hFailed => cases hError.symm.trans hFailed
  · exact ⟨session, hSession, hTx, hRest l hCall db more hError hReads hNone⟩

theorem returned_of_step (h : World.Leads (accountSystem services) (accountStart now) w)
    (hStep : World.step (accountSystem services) w action = some w')
    (hActor : World.Action.actor action = some sid) (hPlays : World.Plays w w' sid call)
    (hCall : loginOf services call = some l)
    (hUndisturbed : ∀ e ∈ w'.shared.history, Undisturbed services e) {outcome : AccountOutcome}
    (hReturned : w'.returned sid = some outcome) :
    (∃ signedIn userId u, outcome = .signedIn (.ok signedIn) ∧ Owner l userId w'.shared.db ∧
      signedIn.user = some u ∧ u.id = userId) ∨
      ∃ error, outcome = .signedIn (.error error) ∧ Refused l w'.shared.db error := by
  have hSound := sound_of_run (h.tail ⟨action, hStep⟩)
  have hNothing {past : List AccountEntry}
    (hRefused : (loginEndings services call).Refused past outcome) :
      ∃ error, outcome = .signedIn (.error error) ∧ Refused l w'.shared.db error := by
    rcases hRefused l hCall with rfl | ⟨rfl, hUnverified⟩
    · exact ⟨_, rfl, .tokenInvalid⟩
    · exact ⟨_, rfl, .emailNotVerified hUnverified⟩
  obtain ⟨past, hOwn, hEnding⟩ :=
    World.ending_of_step (fun call => loginOf services call ≠ none)
      (loginEndings services) ends_accounts
    (fun _ => rfl) h hStep hActor hPlays (by simp [hCall])
  rcases hEnding with ⟨_, _, hRefused⟩ | ⟨e, hOf, hHistory, hBefore, hAfter,
    ⟨hGone, _⟩ | ⟨session, hSession, hTx, hFollows⟩⟩
  · exact .inr (hNothing (hRefused outcome hReturned))
  · simp [World.returned, hGone] at hReturned
  obtain ⟨found, hFound, hDone⟩ := World.returned_eq_some.mp hReturned
  cases hSession.symm.trans hFound
  have hPast : (past ++ [e]).Sublist w'.shared.history := hHistory ▸ hOwn.sublist.append_right [e]
  have hCalls : ∀ e' ∈ past ++ [e], loginOf services e'.call = some l := by
    intro e' he'
    rcases List.mem_append.mp he' with hOld | hNew
    · rw [hOwn.call e' hOld]
      exact hCall
    · rw [List.mem_singleton.mp hNew, hOf]
      exact hCall
  rcases hFollows with ⟨outcome', hDone', hResult⟩ | ⟨_, hGoes⟩
  · cases hDone.symm.trans hDone'
    rcases hResult l hCall with ⟨signedIn, rfl, hStarted⟩ | ⟨error, rfl, hStopped⟩
    · obtain ⟨userId, db, more, u, hDetermined, _, hUser, hSignedIn⟩ := hStarted.user
      refine .inl ⟨signedIn, userId, u, rfl, ?_, hSignedIn, Table.key_of_get hUser⟩
      exact hDetermined.owner hSound (fun e' he' => hPast.subset (List.mem_append_left _ he'))
        fun e' he' => hCalls e' (List.mem_append_left _ he')
    · exact .inr ⟨error, rfl, hStopped.refused hSound hPast hCalls hAfter
        (hUndisturbed e (by simp [hHistory]))⟩
  · rw [hDone] at hGoes
    exact .inr (hNothing hGoes)

theorem later_of_leads (h : World.Leads (accountSystem services) (accountStart now) w)
    (hLeads : World.Leads (accountSystem services) w w') : Later w.shared.db w'.shared.db := by
  induction hLeads with
  | refl => exact .refl _
  | @tail middle last hFirst hStep ih =>
    obtain ⟨action, hStep⟩ := hStep
    have hSound := sound_of_run ((h.trans hFirst).tail ⟨action, hStep⟩)
    rcases World.step_records hStep with ⟨_, hDb⟩ | ⟨_, _, e, _, _, _, hHistory, hBefore, hAfter⟩
    · rw [hDb]
      exact ih
    · refine ih.trans ?_
      rw [← hBefore, ← hAfter]
      exact (hSound.1.legal e (by simp [hHistory])).later

end Runs

/-- In every run, a session that a Google login starts belongs to the owner of the account, no
address and no identity belongs to two, an account is put in only together with its user and stays,
and a login that has put them in goes on to its session. As long as no account is committed between
the two lookups of a login to the user that the second one finds, every login ends on the owner of
its account, or is refused for a reason of its own. -/
theorem google_sign_in {now : Nat} {w : World auth AccountCall AccountOutcome}
    (h : World.Leads (accountSystem services) (accountStart now) w) :
    (∀ e ∈ w.shared.history, ∀ l, loginOf services e.call = some l → ∀ id started,
      e.before.sessions.get id = none →
      e.after.sessions.get id = some started → Owner l started.userId w.shared.db) ∧
    OneEach services w.shared.db ∧
    ∀ action w', World.step (accountSystem services) w action = some w' →
      Later w.shared.db w'.shared.db ∧
      ∀ sid call l, World.Action.actor action = some sid → World.Plays w w' sid call →
        loginOf services call = some l →
        ((w'.shared.db.users = w.shared.db.users ∧ w'.shared.db.accounts = w.shared.db.accounts) ∨
          AtSessionCreation services w' sid call l.user.id) ∧
        ((∀ e ∈ w'.shared.history, Undisturbed services e) →
          (∀ signedIn, w'.returned sid = some (.signedIn (.ok signedIn)) → ∃ userId u,
            signedIn.user = some u ∧ u.id = userId ∧
            ∀ w₂, World.Leads (accountSystem services) w' w₂ → Owner l userId w₂.shared.db) ∧
          ∀ error, w'.returned sid = some (.signedIn (.error error)) →
            Refused l w'.shared.db error) := by
  have hSound := sound_of_run h
  refine ⟨fun e he l hCall id started hNew hStarted => ?_, (Sound.consistent hSound).oneEach,
    fun action w' hStep =>
    ⟨later_of_leads h (.single ⟨action, hStep⟩), fun sid call l hActor hPlays hCall =>
      ⟨put_in_of_step h hStep hActor hPlays hCall,
        fun hUndisturbed => ⟨fun signedIn hReturned => ?_, fun error hReturned => ?_⟩⟩⟩⟩
  · have hLogs := Sound.logs hSound he hCall
    exact ((hLogs.owner hNew hStarted).later hLogs.later).later (Sound.later hSound he)
  · rcases returned_of_step h hStep hActor hPlays hCall hUndisturbed hReturned with
      ⟨signedIn', userId, u, hSame, hOwner, hUser, hId⟩ | ⟨_, hSame, _⟩
    · cases hSame
      exact ⟨userId, u, hUser, hId, fun w₂ hLeads =>
        hOwner.later (later_of_leads (h.tail ⟨action, hStep⟩) hLeads)⟩
    · cases hSame
  · rcases returned_of_step h hStep hActor hPlays hCall hUndisturbed hReturned
      with ⟨_, _, _, hSame, _⟩ | ⟨error', hSame, hRefused⟩
    · cases hSame
    · cases hSame
      exact hRefused

namespace Sample

open Auth.Sample

/-- A first login of one person; what is drawn for it tells the logins apart. -/
def firstLogin (drawn : Nat) (sessionId : String) : AccountCall :=
  .googleLogin ⟨"sub", "alice", true⟩ consent ⟨none, none⟩ ⟨drawn, sessionId⟩
    ⟨sessionId, ⟨sessionId ++ ".x", "#" ++ sessionId, sessionId⟩⟩ false

/-- The user and the account are committed while the other login has found no user yet, too. -/
def recovering : List (Action auth AccountCall) :=
  .spawn 2 (firstLogin 2 "b") :: steps 2 3 ++ .spawn 1 (firstLogin 1 "a") :: steps 1 6 ++ steps 2 8

theorem both_owners :
    ∃ w w' signedIn u, World.Leads (accountSystem accountServices) (accountStart 0) w ∧
    World.step (accountSystem accountServices) w (.run 2) = some w' ∧
    w'.returned 2 = some (.signedIn (.ok signedIn)) ∧
    signedIn.user = some u ∧ Owner ⟨⟨"sub", "alice", true⟩, consent, ⟨2, "b"⟩⟩ u.id w'.shared.db ∧
    u.id = 1 := by
  have hRun : ((accountRun recovering).bind fun w =>
    (World.step (accountSystem accountServices) w (.run 2)).map fun w' =>
      ((w.sessions 2).map Session.call, w'.returned 2,
        w'.shared.history.all fun e => e.reads.all fun p =>
        p.1 ≠ .findUserByEmail ∨ p.2.accounts.rows.isEmpty)) =
      some (some (firstLogin 2 "b"),
        some (.signedIn (.ok ⟨some ⟨1, "a", "alice", none, true⟩, "b.b.x", false⟩)), true) := by
        decide
  obtain ⟨w, hW, hRun⟩ := Option.bind_eq_some_iff.mp hRun
  obtain ⟨w', hStep, hFacts⟩ := Option.map_eq_some_iff.mp hRun
  obtain ⟨hCall, hRest⟩ := Prod.mk.inj hFacts
  obtain ⟨hReturned, hReads⟩ := Prod.mk.inj hRest
  obtain ⟨session, hSession, hCall⟩ := Option.map_eq_some_iff.mp hCall
  have hLeads := World.leads_of_run hW
  have hUndisturbed : ∀ e ∈ w'.shared.history, Undisturbed accountServices e := by
    intro e he l db db' more _ hEntry _ a hGet
    have hRead :=
      List.all_eq_true.mp (List.all_eq_true.mp hReads e he) (.findUserByEmail, db')
        (by simp [hEntry])
    have hEmpty : db'.accounts.rows = [] := by simpa using hRead
    have hMem := Table.mem_of_get hGet
    rw [hEmpty] at hMem
    cases hMem
  obtain ⟨_, _, hSteps⟩ := google_sign_in hLeads
  obtain ⟨_, hLogins⟩ := hSteps _ _ hStep
  obtain ⟨_, hEnds⟩ :=
    hLogins 2 _ ⟨⟨"sub", "alice", true⟩, consent, ⟨2, "b"⟩⟩ rfl ⟨session, .inl hSession, rfl⟩
    (by rw [hCall]; rfl)
  obtain ⟨userId, u, hUser, rfl, hOwner⟩ := (hEnds hUndisturbed).1 _ hReturned
  refine ⟨w, w', _, u, hLeads, hStep, hReturned, hUser, hOwner w' .refl, ?_⟩
  cases hUser
  rfl

/-- The user and the account are committed between the two lookups of the other login. -/
def overtaken : List (Action auth AccountCall) :=
  .spawn 2 (firstLogin 2 "b") :: steps 2 2 ++ .spawn 1 (firstLogin 1 "a") :: steps 1 12 ++ steps 2 2

theorem first_login_refused : ∃ w, World.Leads (accountSystem accountServices) (accountStart 0) w ∧
    (w.sessions 1).map Session.call = some (firstLogin 1 "a") ∧
    (w.sessions 2).map Session.call = some (firstLogin 2 "b") ∧
    w.returned 1 = some (.signedIn (.ok ⟨some ⟨1, "a", "alice", none, true⟩, "a.a.x", false⟩)) ∧
    w.returned 2 = some (.signedIn (.error .accountLinkRequired)) ∧
    (w.shared.db.accounts.get (google, "sub")).map Account.userId = some 1 ∧
    emailOf w.shared.db 1 = some "alice" := by
  have hRun : (accountRun overtaken).map (fun w =>
    ([1, 2].map fun sid => (w.sessions sid).map Session.call,
      [1, 2].map w.returned, (w.shared.db.accounts.get (google, "sub")).map Account.userId,
        emailOf w.shared.db 1)) =
      some ([some (firstLogin 1 "a"), some (firstLogin 2 "b")],
        [some (.signedIn (.ok ⟨some ⟨1, "a", "alice", none, true⟩, "a.a.x", false⟩)),
          some (.signedIn (.error .accountLinkRequired))], some 1, some "alice") := by decide
  obtain ⟨w, hW, hFacts⟩ := Option.map_eq_some_iff.mp hRun
  simp only [Prod.mk.injEq, List.map_cons, List.map_nil, List.cons.injEq, and_true,
    and_assoc] at hFacts
  exact ⟨w, World.leads_of_run hW, hFacts⟩

end Sample

end Pixaeron.Auth.Google
